import Libport.Server.Lifecycle
import Libport.Server.PeerCred

/-!
# The server and all its sessions (`server/server.cc`)

`Server::start` has one accept in flight; each accept that completes starts a session and the next
accept.  From then on the sessions run side by side, and share one dispatcher.

* `startAccept`, `newSession` and `start` are the member functions; `Step` is an accept that
  completes or an operation of some session, in any order.
* `accepted`, `eventsOf` and `log` are what a run does to the listener, to one session and to the
  dispatcher.
* `projects_run`: the events of one session are a run of that session alone, and the dispatcher is
  taken through the log.
* **`run_serializes`**: with the manager as the dispatcher the run is one sequential run of
  commands, and each session has sent the responses to its own, in the order of the log.

The runs here are those in which every command is answered and no two handlers overlap: a command is
dispatched in one step, from the read of its bytes to the call of its writer.  The service runs on a
pool of threads, which does not keep the handlers of two sessions apart; what holds of the table
when they overlap is the subject of `Server.Concurrent` and `Server.Linearizable`.
-/

namespace Libport

/-! ## The server -/

/-- The accepts in flight, the sessions accepted so far and the dispatcher that they share. -/
structure Server (δ : Type) where
  accepting : ℕ := 0
  sessions : List Session := []
  manager : δ

namespace Server

variable {δ : Type}

def startAccept (sv : Server δ) : Server δ := { sv with accepting := sv.accepting + 1 }

/-- `new_session`; without a result the accept has failed, and its session is dropped. -/
def newSession (result : Option (Option Ucred)) (sv : Server δ) : Server δ :=
  startAccept <| match result with
    | some peer => { sv with sessions := sv.sessions ++ [Session.started peer] }
    | none => sv

/-- `start`, up to the run of the service. -/
def start (manager : δ) : Server δ := startAccept { manager := manager }

/-- What can happen next: an accept completes, or an operation of a session does, with the response
of the dispatcher if a command was dispatched. -/
inductive Label
  | accept (result : Option (Option Ucred))
  | completion (i : ℕ) (e : Session.Event) (response : Option Response)

/-- The bytes that the writer of a command was called with. -/
def answerOf : Session.Completion → List UInt8
  | .command _ _ _ _ _ answer => answer
  | _ => []

section Step

variable (parse : List UInt8 → Option Command) (serialize : Response → List UInt8)
  (Dispatch : δ → Command → Response → δ → Prop)

/-- One step.  A handler runs to its end in it, so that no other handler overlaps with it. -/
inductive Step (sv : Server δ) : Label → Server δ → Prop
  | accept {result : Option (Option Ucred)} (h : 0 < sv.accepting) :
      Step sv (.accept result) (newSession result { sv with accepting := sv.accepting - 1 })
  | silent {i : ℕ} {s s' : Session} {e : Session.Event} (hs : sv.sessions[i]? = some s)
      (hstep : Session.Step parse s e s') (hcmd : e.cmd = none) :
      Step sv (.completion i e none) { sv with sessions := sv.sessions.set i s' }
  | dispatch {i : ℕ} {s s' : Session} {e : Session.Event} {cmd : Command} {r : Response} {m : δ}
      (hs : sv.sessions[i]? = some s) (hstep : Session.Step parse s e s')
      (hcmd : e.cmd = some cmd) (hanswer : answerOf e.completion = serialize r)
      (hdispatch : Dispatch sv.manager cmd r m) :
      Step sv (.completion i e (some r))
        { sv with sessions := sv.sessions.set i s', manager := m }

end Step

/-! ## What a run does to each part -/

/-- The peers of the connections accepted. -/
def accepted (labels : List Label) : List (Option Ucred) :=
  labels.filterMap fun
    | .accept result => result
    | .completion _ _ _ => none

/-- The events of one session. -/
def eventsOf (i : ℕ) (labels : List Label) : List Session.Event :=
  labels.filterMap fun
    | .accept _ => none
    | .completion j e _ => if j = i then some e else none

/-- A command that was dispatched. -/
structure Entry where
  session : ℕ
  cmd : Command
  response : Response

/-- The commands dispatched, in order. -/
def log (labels : List Label) : List Entry :=
  labels.filterMap fun
    | .completion i ⟨_, some cmd⟩ (some r) => some ⟨i, cmd, r⟩
    | _ => none

lemma accepted_append (labels rest : List Label) :
    accepted (labels ++ rest) = accepted labels ++ accepted rest := List.filterMap_append

lemma eventsOf_append (i : ℕ) (labels rest : List Label) :
    eventsOf i (labels ++ rest) = eventsOf i labels ++ eventsOf i rest := List.filterMap_append

lemma log_append (labels rest : List Label) : log (labels ++ rest) = log labels ++ log rest :=
  List.filterMap_append

/-! ## One completion of a session -/

section Completion

variable {parse : List UInt8 → Option Command} {s s' : Session} {e : Session.Event}

lemma served_of_silent (hcmd : e.cmd = none) : Session.served [e] = [] := by
  obtain ⟨completion, cmd⟩ := e
  obtain rfl : cmd = none := hcmd
  cases completion <;> rfl

/-- Only the read of a command dispatches one. -/
lemma served_of_dispatch (hstep : Session.Step parse s e s') {cmd : Command}
    (hcmd : e.cmd = some cmd) : Session.served [e] = [(cmd, answerOf e.completion)] := by
  obtain ⟨completion, result⟩ := e
  obtain rfl : result = some cmd := hcmd
  obtain ⟨-, hrun⟩ := hstep
  have hsilent : ∀ act : Action Fault Session Unit, ∀ t,
      (do act; pure none : Action Fault Session (Option Command)) s ≠ (.ok (some cmd), t) := by
    intro act t h
    rw [Action.bind_run] at h
    generalize act s = after at h
    rcases after with ⟨_ | _, u⟩ <;> cases h
  cases completion with
  | header ec bytes => exact absurd hrun (hsilent _ _)
  | command size data ec bytes stray answer => rfl
  | response size ec transferred => exact absurd hrun (hsilent _ _)

end Completion

/-! ## The parts of a run -/

section Projects

variable {parse : List UInt8 → Option Command} {serialize : Response → List UInt8}
  {Dispatch : δ → Command → Response → δ → Prop} {m₀ : δ} {labels : List Label} {sv sv' : Server δ}

/-- A run is a run of each session from its own start, and of the dispatcher along the log. -/
structure Projects (parse : List UInt8 → Option Command) (serialize : Response → List UInt8)
    (Dispatch : δ → Command → Response → δ → Prop) (m₀ : δ) (labels : List Label)
    (sv : Server δ) : Prop where
  accepting : sv.accepting = 1
  length : sv.sessions.length = (accepted labels).length
  fresh : ∀ i, sv.sessions.length ≤ i → eventsOf i labels = []
  runs : ∀ i s, sv.sessions[i]? = some s → ∃ peer, (accepted labels)[i]? = some peer ∧
    Run (Session.Step parse) (Session.started peer) (eventsOf i labels) s
  served : ∀ i, Session.served (eventsOf i labels) =
    ((log labels).filter fun x => x.session = i).map fun x => (x.cmd, serialize x.response)
  manager : Run (fun m (x : Entry) m' => Dispatch m x.cmd x.response m') m₀ (log labels) sv.manager

lemma projects_start : Projects parse serialize Dispatch m₀ [] (start m₀) where
  accepting := rfl
  length := rfl
  fresh := fun _ _ => rfl
  runs := fun i s hs => by simp [start, startAccept] at hs
  served := fun _ => rfl
  manager := .nil

/-- An accept adds a session that has not done anything, or nothing. -/
lemma Projects.accept (h : Projects parse serialize Dispatch m₀ labels sv)
    (result : Option (Option Ucred)) :
    Projects parse serialize Dispatch m₀ (labels ++ [.accept result])
      (newSession result { sv with accepting := sv.accepting - 1 }) := by
  have hevents : ∀ i, eventsOf i (labels ++ [.accept result]) = eventsOf i labels := by
    intro i
    rw [eventsOf_append]
    exact List.append_nil _
  have hlog : log (labels ++ [.accept result]) = log labels := by
    rw [log_append]
    exact List.append_nil _
  have hone : sv.accepting - 1 + 1 = 1 := by rw [h.accepting]
  cases result with
  | none =>
      have haccepted : accepted (labels ++ [.accept none]) = accepted labels := by
        rw [accepted_append]
        exact List.append_nil _
      refine ⟨hone, ?_, ?_, ?_, ?_, ?_⟩
      · rw [haccepted]
        exact h.length
      · intro i hi
        rw [hevents]
        exact h.fresh i hi
      · intro i s hs
        rw [hevents, haccepted]
        exact h.runs i s hs
      · simpa only [hevents, hlog] using h.served
      · rw [hlog]
        exact h.manager
  | some peer =>
      have haccepted : accepted (labels ++ [.accept (some peer)]) = accepted labels ++ [peer] :=
        accepted_append _ _
      have hsessions : (newSession (some peer) { sv with accepting := sv.accepting - 1 }).sessions
          = sv.sessions ++ [Session.started peer] := rfl
      refine ⟨hone, ?_, ?_, ?_, ?_, ?_⟩
      · rw [haccepted, hsessions, List.length_append, List.length_append, h.length]
        rfl
      · intro i hi
        rw [hsessions, List.length_append] at hi
        rw [hevents]
        exact h.fresh i (Nat.le_of_add_right_le hi)
      · intro i s hs
        rw [hevents, haccepted]
        rw [hsessions] at hs
        by_cases hi : i < sv.sessions.length
        · rw [List.getElem?_append_left hi] at hs
          obtain ⟨q, hq, hrun⟩ := h.runs i s hs
          exact ⟨q, by rw [List.getElem?_append_left (h.length ▸ hi), hq], hrun⟩
        · -- the session is the new one, without events
          have hge := Nat.le_of_not_lt hi
          rw [List.getElem?_append_right hge] at hs
          obtain ⟨hlast, hs⟩ := List.getElem?_eq_some_iff.mp hs
          have hzero : i - sv.sessions.length = 0 := Nat.lt_one_iff.mp hlast
          refine ⟨peer, ?_, ?_⟩
          · rw [List.getElem?_append_right (h.length ▸ hge), ← h.length, hzero]
            rfl
          · rw [h.fresh i hge, ← hs]
            simp only [hzero, List.getElem_cons_zero]
            exact .nil
      · simpa only [hevents, hlog] using h.served
      · rw [hlog]
        exact h.manager

/-- An operation of one session leaves the others where they are. -/
lemma Projects.completion (h : Projects parse serialize Dispatch m₀ labels sv) {i : ℕ}
    {s s' : Session} {e : Session.Event} (hs : sv.sessions[i]? = some s)
    (hstep : Session.Step parse s e s') {response : Option Response} {m : δ}
    (hserved : Session.served [e] = (log [.completion i e response]).map
      fun x => (x.cmd, serialize x.response))
    (hlog : ∀ x ∈ log [.completion i e response], x.session = i)
    (hmanager : Run (fun m (x : Entry) m' => Dispatch m x.cmd x.response m') m₀
      (log (labels ++ [.completion i e response])) m) :
    Projects parse serialize Dispatch m₀ (labels ++ [.completion i e response])
      { sv with sessions := sv.sessions.set i s', manager := m } := by
  have hi : i < sv.sessions.length := (List.getElem?_eq_some_iff.mp hs).1
  have haccepted : accepted (labels ++ [.completion i e response]) = accepted labels := by
    rw [accepted_append]
    exact List.append_nil _
  have hown : eventsOf i (labels ++ [.completion i e response]) = eventsOf i labels ++ [e] := by
    rw [eventsOf_append]
    simp [eventsOf]
  have hother : ∀ j, j ≠ i →
      eventsOf j (labels ++ [.completion i e response]) = eventsOf j labels := by
    intro j hj
    rw [eventsOf_append]
    simp [eventsOf, hj.symm]
  refine ⟨h.accepting, ?_, ?_, ?_, ?_, hmanager⟩
  · rw [haccepted, List.length_set]
    exact h.length
  · intro j hj
    rw [List.length_set] at hj
    rw [hother j (Nat.ne_of_gt (hi.trans_le hj))]
    exact h.fresh j hj
  · intro j t ht
    rw [haccepted]
    by_cases hj : j = i
    · subst hj
      rw [List.getElem?_set_self hi] at ht
      obtain rfl := Option.some.inj ht
      obtain ⟨peer, hpeer, hrun⟩ := h.runs j s hs
      exact ⟨peer, hpeer, by rw [hown]; exact hrun.snoc hstep⟩
    · rw [List.getElem?_set_ne (Ne.symm hj)] at ht
      rw [hother j hj]
      exact h.runs j t ht
  · intro j
    rw [log_append, List.filter_append, List.map_append, ← h.served j]
    by_cases hj : j = i
    · subst hj
      have hall : (log [.completion j e response]).filter (fun x => x.session = j)
          = log [.completion j e response] :=
        List.filter_eq_self.mpr fun x hx => by simpa using hlog x hx
      rw [hown, Session.served_append, hserved, hall]
    · have hnone : (log [.completion i e response]).filter (fun x => x.session = j) = [] := by
        refine List.filter_eq_nil_iff.mpr fun x hx => ?_
        simpa [hlog x hx] using Ne.symm hj
      rw [hother j hj, hnone, List.map_nil, List.append_nil]

/-- **The step lemma.** -/
lemma Projects.step (h : Projects parse serialize Dispatch m₀ labels sv) {l : Label}
    (hstep : Step parse serialize Dispatch sv l sv') :
    Projects parse serialize Dispatch m₀ (labels ++ [l]) sv' := by
  cases hstep with
  | accept _ => exact h.accept _
  | @silent i s s' e hs hstep hcmd =>
      have hlog : log [.completion i e none] = [] := by
        obtain ⟨completion, cmd⟩ := e
        obtain rfl : cmd = none := hcmd
        rfl
      refine h.completion hs hstep ?_ ?_ ?_
      · rw [served_of_silent hcmd, hlog, List.map_nil]
      · simp [hlog]
      · rw [log_append, hlog, List.append_nil]
        exact h.manager
  | @dispatch i s s' e cmd r m hs hstep hcmd hanswer hdispatch =>
      have hlog : log [.completion i e (some r)] = [⟨i, cmd, r⟩] := by
        obtain ⟨completion, result⟩ := e
        obtain rfl : result = some cmd := hcmd
        rfl
      refine h.completion hs hstep ?_ ?_ ?_
      · rw [served_of_dispatch hstep hcmd, hlog, hanswer]
        rfl
      · simp [hlog]
      · rw [log_append, hlog]
        exact h.manager.snoc hdispatch

/-- **The run lemma**: every interleaving is a run of each of its parts. -/
lemma projects_run (hrun : Run (Step parse serialize Dispatch) (start m₀) labels sv) :
    Projects parse serialize Dispatch m₀ labels sv :=
  hrun.invariant projects_start fun _ _ _ _ h hstep => h.step hstep

end Projects

/-! ## The manager as the dispatcher -/

section Credentials

variable {parse : List UInt8 → Option Command} {s s' : Session} {events : List Session.Event}
  {e : Session.Event}

/-- No handler changes the credentials. -/
lemma stamp_of_step (hp : s.pending = [e.completion.op]) (hstep : Session.Step parse s e s') :
    s'.stamp = s.stamp := by
  obtain ⟨completion, cmd⟩ := e
  obtain ⟨-, hrun⟩ := hstep
  cases completion with
  | header ec bytes =>
      obtain ⟨t, ht, hkeeps, -⟩ := Session.headerCompleted_cases parse hp ec bytes
      simp only [Session.Completion.run, Action.bind_run, ht, Action.pure_run,
        Prod.mk.injEq] at hrun
      rw [← hrun.2, hkeeps.stamp]
  | command size data ec bytes stray answer =>
      have hrun :
          Session.commandCompleted parse size data ec bytes stray answer s = (.ok cmd, s') :=
        hrun
      rcases Session.commandCompleted_cases hp ec bytes stray answer with
        ⟨t, ht, hkeeps, -⟩ | ⟨raw, t, ht, -, -, hstamp, -⟩
      · rw [ht] at hrun
        cases hrun
        exact hkeeps.stamp
      · rw [ht] at hrun
        cases hrun
        exact hstamp
  | response size ec transferred =>
      obtain ⟨t, ht, hkeeps, -⟩ := Session.responseCompleted_cases parse hp ec transferred
      simp only [Session.Completion.run, Action.bind_run, ht, Action.pure_run,
        Prod.mk.injEq] at hrun
      rw [← hrun.2, hkeeps.stamp]

lemma inv_started (parse : List UInt8 → Option Command) (peer : Option Ucred) :
    Session.Inv parse [] (Session.started peer) := by
  obtain ⟨t, ht, hinit⟩ :=
    @Session.Fresh.start {} ⟨rfl, rfl, rfl, rfl⟩ parse peer
  rw [Session.started, ht]
  exact hinit

/-- A session that runs keeps the invariant and the credentials it started with. -/
lemma run_started {peer : Option Ucred}
    (hrun : Run (Session.Step parse) (Session.started peer) events s) :
    Session.Inv parse events s ∧ s.stamp = (Session.started peer).stamp := by
  refine hrun.invariant (I := fun done t => Session.Inv parse done t ∧
    t.stamp = (Session.started peer).stamp) ⟨inv_started parse peer, rfl⟩ ?_
  rintro done e t u ⟨hinv, hstamp⟩ hstep
  exact ⟨hinv.step hstep, (stamp_of_step (hinv.phase.alone hstep.1) hstep).trans hstamp⟩

/-- A session that was refused does nothing. -/
lemma opened_of_step {peer : Option Ucred}
    (hrun : Run (Session.Step parse) (Session.started peer) events s)
    (hstep : Session.Step parse s e s') : (Session.started peer).opened = true := by
  by_contra hclosed
  have hidle : (Session.started peer).pending = [] := by
    cases (inv_started parse peer).phase with
    | halted h => exact h.1
    | reading _ _ hopen _ => exact absurd hopen hclosed
    | writing _ hopen _ => exact absurd hopen hclosed
  have hnone : s.pending = [] := by
    refine hrun.invariant (I := fun _ t => t.pending = []) hidle ?_
    intro done e t u ht hstep
    have hop := hstep.1
    rw [ht] at hop
    cases hop
  have hop := hstep.1
  rw [hnone] at hop
  cases hop

/-- A command is dispatched under the credentials of its session, which was accepted. -/
lemma stamped_of_dispatch {peer : Option Ucred}
    (hrun : Run (Session.Step parse) (Session.started peer) events s)
    (hstep : Session.Step parse s e s') {cmd : Command} (hcmd : e.cmd = some cmd) :
    (Session.started peer).stamp cmd = cmd := by
  obtain ⟨hinv, hstamp⟩ := run_started (hrun.snoc hstep)
  have hmem : cmd ∈ (Session.served (events ++ [e])).map Prod.fst := by
    rw [Session.served_append, served_of_dispatch hstep hcmd]
    simp
  rw [hinv.parsed, hstamp] at hmem
  obtain ⟨raw, -, rfl⟩ := List.mem_map.mp hmem
  rfl

end Credentials

/-- `dispatch` calls the writer with a response. -/
def ManagerAnswers (env : Env) (d : Daemon) (cmd : Command) (r : Response) (d' : Daemon) : Prop :=
  Manager.dispatch env cmd Manager.record d = (.ok true, d') ∧ d'.written = d.written ++ [some r]

/-- The run as the daemon without its sockets sees it. -/
def systemEvents (labels : List Label) : List Event :=
  labels.filterMap fun
    | .accept result => result.map .accepted
    | .completion i ⟨_, some cmd⟩ (some _) => some (.decoded i cmd)
    | _ => none

section Serializes

variable {parse : List UInt8 → Option Command} {serialize : Response → List UInt8} {env : Env}
  {labels : List Label} {sv sv' : Server Daemon}

lemma serve_of_answers {d d' : Daemon} {cmd : Command} {r : Response}
    (h : ManagerAnswers env d cmd r d') : Manager.serve env cmd d = (.ok (), d') := by
  rw [Manager.serve, Action.bind_run, h.1]
  rfl

/-- What one step of the server does to the daemon and its sessions. -/
lemma system_step (h : Projects parse serialize (ManagerAnswers env) {} labels sv) {l : Label}
    (hstep : Step parse serialize (ManagerAnswers env) sv l sv') :
    Action.forEach (System.step env) (systemEvents [l])
        ⟨sv.manager, (accepted labels).map Session.started⟩
      = (.ok (), ⟨sv'.manager, (accepted (labels ++ [l])).map Session.started⟩) := by
  rw [accepted_append, List.map_append]
  cases hstep with
  | @accept result _ =>
      cases result with
      | none =>
          simp only [accepted, List.filterMap_cons, List.filterMap_nil, List.map_nil,
            List.append_nil]
          rfl
      | some peer => rfl
  | @silent i s s' e hs hstep hcmd =>
      have hevents : systemEvents [.completion i e none] = [] := by
        obtain ⟨completion, cmd⟩ := e
        obtain rfl : cmd = none := hcmd
        rfl
      rw [hevents]
      simp only [accepted, List.filterMap_cons, List.filterMap_nil, List.map_nil,
        List.append_nil]
      rfl
  | @dispatch i s s' e cmd r m hs hstep hcmd hanswer hdispatch =>
      have hevents : systemEvents [.completion i e (some r)] = [.decoded i cmd] := by
        obtain ⟨completion, result⟩ := e
        obtain rfl : result = some cmd := hcmd
        rfl
      obtain ⟨peer, hpeer, hrun⟩ := h.runs i s hs
      have hsession : ((accepted labels).map Session.started)[i]?
          = some (Session.started peer) := by
        rw [List.getElem?_map, hpeer]
        rfl
      have hopen := opened_of_step hrun hstep
      have hstamp := stamped_of_dispatch hrun hstep hcmd
      have hnone : accepted [.completion i e (some r)] = [] := rfl
      rw [hevents, hnone, List.map_nil, List.append_nil, Action.forEach_cons_ok]
      refine ⟨_, ?_, rfl⟩
      simp only [System.step, Action.bind_run, Action.get_run, hsession, hopen, if_true,
        Action.zoom_run, hstamp, serve_of_answers hdispatch]

/-- The server does what the daemon without its sockets does. -/
lemma run_system (hrun : Run (Step parse serialize (ManagerAnswers env)) (start {}) labels sv) :
    System.run env (systemEvents labels)
      = (.ok (), ⟨sv.manager, (accepted labels).map Session.started⟩) := by
  refine (hrun.invariant (I := fun labels sv =>
    Projects parse serialize (ManagerAnswers env) {} labels sv ∧
      System.run env (systemEvents labels)
        = (.ok (), ⟨sv.manager, (accepted labels).map Session.started⟩))
    ⟨projects_start, rfl⟩ ?_).2
  rintro done l t u ⟨hparts, hsystem⟩ hstep
  have happend : systemEvents (done ++ [l]) = systemEvents done ++ systemEvents [l] :=
    List.filterMap_append
  refine ⟨hparts.step hstep, ?_⟩
  rw [System.run, happend, Action.forEach_append_ok]
  exact ⟨_, hsystem, system_step hparts hstep⟩

/-- The manager has written the responses of the log. -/
lemma written_of_log {log : List Entry} {d d' : Daemon}
    (h : Run (fun d (x : Entry) d' => ManagerAnswers env d x.cmd x.response d') d log d') :
    d'.written = d.written ++ log.map fun x => some x.response := by
  induction h with
  | nil => simp
  | snoc _ hlast ih => rw [hlast.2, ih, List.map_append, List.append_assoc]; rfl

/-- **The server serializes its sessions.**  After every interleaving of accepts and completions in
which no command is left unanswered and no two handlers overlap, one accept is in flight; the
manager has answered the commands of all sessions one after the other, as the daemon without its
sockets does, and has written the responses of that log; and each session is orderly by itself and
has sent the responses to its own commands, in the order of the log. -/
theorem run_serializes
    (hrun : Run (Step parse serialize (ManagerAnswers env)) (start {}) labels sv) :
    sv.accepting = 1 ∧
      System.run env (systemEvents labels)
        = (.ok (), ⟨sv.manager, (accepted labels).map Session.started⟩) ∧
      sv.manager.written = (log labels).map (fun x => some x.response) ∧
      ∀ i s, sv.sessions[i]? = some s →
        Session.Orderly parse (eventsOf i labels) s ∧
          s.sent = ((log labels).filter fun x => x.session = i).map
            fun x => frame (serialize x.response) := by
  have hparts := projects_run hrun
  refine ⟨hparts.accepting, run_system hrun, ?_, ?_⟩
  · rw [written_of_log hparts.manager]
    exact List.nil_append _
  · intro i s hs
    obtain ⟨peer, -, hown⟩ := hparts.runs i s hs
    have hinv := (run_started hown).1
    refine ⟨hinv.toOrderly, ?_⟩
    rw [hinv.answered, hparts.served i, List.map_map]
    rfl

/-- The answer to a `CREATE_PRINCIPAL` without a statement. -/
def malformed : Response := makeStatusResponse false "principal not found or mal-formed"

/-- A connection, an accept that fails, and a command served on the connection. -/
def aliceLabels : List Label :=
  .accept (some (some ⟨100, 1, 1⟩)) :: .accept none ::
    List.zipWith (Label.completion 0)
      (Session.servingEvents (serializeAuth { auth := "alice" }) [0x08, 0x01]
        (idleSession.stamp { auth := "alice" })) [none, some malformed, none]

theorem run_serializes_alice :
    ∃ sv, Run (Step parseAuth (fun _ => [0x08, 0x01]) (ManagerAnswers Manager.acceptingService))
        (start {}) aliceLabels sv ∧
      sv.accepting = 1 ∧ sv.manager.written = [some malformed] := by
  have hsmall : (serializeAuth { auth := "alice" }).length ≤ recvBufsz := by decide
  have hparse : parseAuth (serializeAuth { auth := "alice" }) = some { auth := "alice" } := by
    decide
  have hp : idleSession.pending = [.readHeader] := rfl
  -- the three completions of the session, and of the server
  obtain ⟨s₃, hserving, -⟩ := Session.exists_serving_run hsmall hp hparse [0x08, 0x01]
  obtain ⟨s₂, hserving, hsent⟩ := (@Run.concat_iff _ _ _ _ _ [_, _] _).mp hserving
  obtain ⟨s₁, hserving, hcommand⟩ := (@Run.concat_iff _ _ _ _ _ [_] _).mp hserving
  obtain ⟨s₀, hserving, hheader⟩ := (@Run.concat_iff _ _ _ _ _ [] _).mp hserving
  obtain rfl := Run.nil_iff.mp hserving
  have hanswer : ManagerAnswers Manager.acceptingService {}
      (idleSession.stamp { auth := "alice" }) malformed { written := [some malformed] } :=
    ⟨rfl, rfl⟩
  have hrun : Run (Step parseAuth (fun _ => [0x08, 0x01])
      (ManagerAnswers Manager.acceptingService)) (start {}) aliceLabels _ :=
    .snoc (.snoc (.snoc (.snoc (.snoc .nil (.accept Nat.one_pos)) (.accept Nat.one_pos))
      (.silent (s := idleSession) rfl hheader rfl))
      (.dispatch (s := s₁) rfl hcommand rfl rfl hanswer)) (.silent (s := s₂) rfl hsent rfl)
  obtain ⟨haccepting, -, hwritten, -⟩ := run_serializes hrun
  exact ⟨_, hrun, haccepting, hwritten⟩

end Serializes

end Server

end Libport
