import Libport.Lib.Run
import Libport.Server.Registry

/-!
# The table under concurrent sessions

The handlers run on a pool of threads, so the steps of several commands interleave.  A creation is
three steps: the generation is fetched, the instance is posted, and the entry is inserted.  A
deletion is two: the lookup and the erase under the lock, then the request.  A lookup is one.

`World` is the daemon with the creations and deletions in flight, and `Step` lets any of them take
its next step, with any reply of the service and any iteration order.  The invariant `Inv` speaks
of the table together with the creations in flight: no generation is used twice, neither among the
names posted and the creations that will be posted, nor among the entries and the creations that
will be inserted.

That the generation is fetched in one step is an assumption, here and wherever `World` is used:
`gn_` is a plain counter outside the lock, and two threads that step it at the same instant could
get one value.

* `createPrincipal_steps`, `deletePrincipal_steps`: the steps in sequence are the handlers.
* `Step.effect`: what one step does; `Inv.step`: what it keeps.
* **`registry_concurrent`**: what holds in every interleaving of fewer than `2 ^ 64` creations.
-/

namespace Libport

/-- A command in flight, with the principal it works on. -/
structure Job where
  cmd : Command
  principal : Principal
deriving DecidableEq

def Job.gn (job : Job) : UInt64 := job.principal.gn

namespace Manager

/-! ## The steps of a creation -/

/-- `p->set_gn(gn())`, taken as one step although no lock is held. -/
def fetchGeneration (p : Principal) : Action Exc Daemon Principal := do
  let gn ← nextGn
  pure { p with gn := gn }

/-- The call of `create_instance`. -/
def postInstance (env : Env) (cmd : Command) (p : Principal) : Action Exc Daemon Bool :=
  let imageStore := if p.code.imageStore = "" then cmd.auth else p.code.imageStore
  service (MetadataServiceClient.createInstance env.platform env.replies cmd.auth (principalName p)
    p.code.image p.auth.ip p.auth.portLo p.auth.portHi imageStore
    (env.configOrder p.code.config.entries))

/-- The entry is inserted with the session's pid as its speaker. -/
def insertPrincipal (cmd : Command) (p : Principal) : Action Exc Daemon Unit :=
  addPrincipal p.id { p with speaker := cmd.pid }

/-- **The three steps in sequence are `create_principal`.** -/
lemma createPrincipal_steps (env : Env) {cmd : Command} {p : Principal}
    (h : extractPrincipal cmd = some p) :
    createPrincipal env cmd = (do
      let p ← fetchGeneration p
      let _ ← postInstance env cmd p
      insertPrincipal cmd p
      status true "") := by
  funext d
  simp only [createPrincipal, h, fetchGeneration, nextGn, postInstance, insertPrincipal,
    Action.bind_run, Action.get_run, Action.modify_run, Action.pure_run]

/-! ## The steps of a deletion -/

/-- The part of `delete_principal` under the lock: the latest generation when its entries were
erased, and otherwise the response. -/
def lookupAndErase (env : Env) (cmd : Command) (p : Principal) :
    Action Exc Daemon (Except Response Principal) := do
  let d ← Action.get
  let newest := latest env d p.id
  if newest.any (fun l => l.speaker ≠ cmd.pid ∧ cmd.uid ≠ 0) then
    pure (.error (makeStatusResponse false "privilege not matching"))
  else
    erasePrincipals p.id
    match newest with
    | some l => pure (.ok l)
    | none => pure (.error (makeStatusResponse false "latest principal not found"))

/-- The call of `delete_instance`. -/
def postDeletion (env : Env) (cmd : Command) (l : Principal) : Action Exc Daemon Bool :=
  service (MetadataServiceClient.deleteInstance env.platform env.replies cmd.auth (principalName l))

/-- **The two steps in sequence are `delete_principal`.** -/
lemma deletePrincipal_steps (env : Env) {cmd : Command} {p : Principal}
    (h : extractPrincipal cmd = some p) :
    deletePrincipal env cmd = (do
      match ← lookupAndErase env cmd p with
      | .ok l =>
          let _ ← postDeletion env cmd l
          status true ""
      | .error r => respond r) := by
  funext d
  simp only [deletePrincipal, h, lookupAndErase, postDeletion, Action.bind_run, Action.get_run]
  split_ifs with hpriv
  · rfl
  · cases latest env d p.id with
    | some l => rfl
    | none => rfl

/-! ## All commands in flight -/

/-- The daemon, the creations that have a generation, those whose instance was accepted, and the
deletions that erased their entries. -/
structure World where
  daemon : Daemon := {}
  fetched : List Job := []
  posted : List Job := []
  deleting : List Job := []

/-- The step that is taken. -/
inductive Event
  | fetched (cmd : Command) (p : Principal)
  | posted (job : Job)
  | postThrew (job : Job)
  | inserted (job : Job)
  | erased (cmd : Command) (p : Principal)
  | notErased (cmd : Command) (p : Principal)
  | deletionPosted (job : Job)
  | looked (cmd : Command)

/-- One step of one command.  Each step may find another iteration order and other replies. -/
inductive Step (w : World) : Event → World → Prop
  | fetch {cmd : Command} {p q : Principal} {d : Daemon} (ht : cmd.type = .createPrincipal)
      (hx : extractPrincipal cmd = some p) (hrun : fetchGeneration p w.daemon = (.ok q, d)) :
      Step w (.fetched cmd p) { w with daemon := d, fetched := ⟨cmd, q⟩ :: w.fetched }
  | post (env : Env) {job : Job} {b : Bool} {d : Daemon} (hjob : job ∈ w.fetched)
      (hrun : postInstance env job.cmd job.principal w.daemon = (.ok b, d)) :
      Step w (.posted job) { w with
        daemon := d
        fetched := w.fetched.erase job
        posted := job :: w.posted }
  | postThrow (env : Env) {job : Job} {e : Exc} {d : Daemon} (hjob : job ∈ w.fetched)
      (hrun : postInstance env job.cmd job.principal w.daemon = (.error e, d)) :
      Step w (.postThrew job) { w with daemon := d, fetched := w.fetched.erase job }
  | insert {job : Job} {d : Daemon} (hjob : job ∈ w.posted)
      (hrun : insertPrincipal job.cmd job.principal w.daemon = (.ok (), d)) :
      Step w (.inserted job) { w with daemon := d, posted := w.posted.erase job }
  | erase (env : Env) {cmd : Command} {p l : Principal} {d : Daemon}
      (ht : cmd.type = .deletePrincipal) (hx : extractPrincipal cmd = some p)
      (hrun : lookupAndErase env cmd p w.daemon = (.ok (.ok l), d)) :
      Step w (.erased cmd p) { w with daemon := d, deleting := ⟨cmd, l⟩ :: w.deleting }
  | keep (env : Env) {cmd : Command} {p : Principal} {r : Response} {d : Daemon}
      (ht : cmd.type = .deletePrincipal) (hx : extractPrincipal cmd = some p)
      (hrun : lookupAndErase env cmd p w.daemon = (.ok (.error r), d)) :
      Step w (.notErased cmd p) { w with daemon := d }
  | postDeletion (env : Env) {job : Job} {x : Except Exc Bool} {d : Daemon}
      (hjob : job ∈ w.deleting)
      (hrun : postDeletion env job.cmd job.principal w.daemon = (x, d)) :
      Step w (.deletionPosted job) { w with daemon := d, deleting := w.deleting.erase job }
  | look (env : Env) {cmd : Command} {x : Except Exc (Option Response)} {d : Daemon}
      (ht : cmd.type = .getLocalPrincipal) (hrun : getLocalPrincipal env cmd w.daemon = (x, d)) :
      Step w (.looked cmd) { w with daemon := d }

/-- The step fetches a generation. -/
def Event.isFetch : Event → Bool
  | fetched _ _ => true
  | _ => false

/-- The instance names that creations posted. -/
def postedNames (log : List Exchange) : List String :=
  log.filterMap fun x =>
    if x.request.path = "/postInstance" then x.request.otherValues.head? else none

/-! ## What each step does to the daemon -/

lemma fetchGeneration_run (p : Principal) (d : Daemon) :
    fetchGeneration p d = (.ok { p with gn := d.gn }, { d with gn := d.gn + 1 }) := rfl

lemma insertPrincipal_run (cmd : Command) (p : Principal) (d : Daemon) :
    insertPrincipal cmd p d
      = (.ok (), { d with principals := (p.id, { p with speaker := cmd.pid }) :: d.principals }) :=
  rfl

/-- A post adds exchanges, of which the first one names the instance. -/
lemma postInstance_daemon (env : Env) (cmd : Command) (p : Principal) (d : Daemon) :
    ∃ log, (postInstance env cmd p d).2 = { d with exchanges := log } ∧
      postedNames log = postedNames d.exchanges ++ [principalName p] := by
  have hnames : ∀ (req : Request) (o : Outcome) (rest : List Exchange),
      req.path = "/postInstance" → req.otherValues.head? = some (principalName p) →
      (∀ x ∈ rest, x.request.path ≠ "/postInstance") →
      postedNames (d.exchanges ++ ⟨req, o⟩ :: rest)
        = postedNames d.exchanges ++ [principalName p] := by
    intro req o rest hpath hhead hrest
    have hnone : rest.filterMap (fun x => if x.request.path = "/postInstance"
        then x.request.otherValues.head? else none) = [] := by
      rw [List.filterMap_eq_nil_iff]
      intro x hx
      rw [if_neg (hrest x hx)]
    simp [postedNames, hpath, hhead, hnone]
  simp only [postInstance, service, Action.zoom_run, createInstance_run]
  cases keyOutcome (env.replies d.exchanges.length) with
  | error e => exact ⟨_, rfl, hnames _ _ [] rfl rfl (by simp)⟩
  | ok key => exact ⟨_, rfl, hnames _ _ _ rfl rfl (by simp [formatRequest])⟩

lemma postDeletion_daemon (env : Env) (cmd : Command) (l : Principal) (d : Daemon) :
    ∃ log, (postDeletion env cmd l d).2 = { d with exchanges := log } ∧
      postedNames log = postedNames d.exchanges := by
  simp only [postDeletion, service, Action.zoom_run, deleteInstance_run]
  exact ⟨_, rfl, by simp [postedNames, formatRequest]⟩

/-- Under the lock the entries of the id are erased, or nothing changes. -/
lemma lookupAndErase_cases (env : Env) (cmd : Command) (p : Principal) (d : Daemon) :
    (∃ r, lookupAndErase env cmd p d = (.ok (.error r), d)) ∨
      ∃ l, lookupAndErase env cmd p d = (.ok (.ok l), { d with
        principals := d.principals.filter fun e => e.1 ≠ p.id }) := by
  simp only [lookupAndErase, Action.bind_run, Action.get_run]
  split_ifs with hpriv
  · exact Or.inl ⟨_, rfl⟩
  · cases hl : latest env d p.id with
    | some l => exact Or.inr ⟨l, rfl⟩
    | none =>
        have hkeep : d.principals.filter (fun e => e.1 ≠ p.id) = d.principals :=
          List.filter_eq_self.mpr fun e he => by
            simpa using (latest_eq_none env).mp hl e he
        refine Or.inl ⟨makeStatusResponse false "latest principal not found", ?_⟩
        simp only [erasePrincipals, Action.bind_run, Action.modify_run, Action.pure_run, hkeep]

lemma getLocalPrincipal_daemon (env : Env) (cmd : Command) (d : Daemon) :
    (getLocalPrincipal env cmd d).2 = d := by
  cases hx : extractPrincipal cmd with
  | none =>
      rw [getLocalPrincipal, hx]
      rfl
  | some p => rw [getLocalPrincipal_run env hx]

/-- What a step does to the world, whatever was replied. -/
inductive Effect (w : World) : Event → World → Prop
  | nothing {e : Event} (he : e.isFetch = false) : Effect w e w
  | fetch (cmd : Command) (p : Principal) : Effect w (.fetched cmd p) { w with
      daemon := { w.daemon with gn := w.daemon.gn + 1 }
      fetched := ⟨cmd, { p with gn := w.daemon.gn }⟩ :: w.fetched }
  | post {e : Event} {job : Job} {log : List Exchange} {posted : List Job}
      (he : e.isFetch = false) (hjob : job ∈ w.fetched)
      (hlog : postedNames log = postedNames w.daemon.exchanges ++ [principalName job.principal])
      (hposted : posted = job :: w.posted ∨ posted = w.posted) : Effect w e { w with
      daemon := { w.daemon with exchanges := log }
      fetched := w.fetched.erase job
      posted := posted }
  | insert {job : Job} (hjob : job ∈ w.posted) : Effect w (.inserted job) { w with
      daemon := { w.daemon with
        principals := (job.principal.id, { job.principal with speaker := job.cmd.pid })
          :: w.daemon.principals }
      posted := w.posted.erase job }
  | erase (cmd : Command) (p : Principal) (deleting : List Job) :
      Effect w (.erased cmd p) { w with
        daemon := { w.daemon with principals := w.daemon.principals.filter fun e => e.1 ≠ p.id }
        deleting := deleting }
  | postDeletion {job : Job} {log : List Exchange} (deleting : List Job)
      (hlog : postedNames log = postedNames w.daemon.exchanges) :
      Effect w (.deletionPosted job) { w with
        daemon := { w.daemon with exchanges := log }
        deleting := deleting }

/-- **Every step has one of these effects.** -/
lemma Step.effect {w w' : World} {e : Event} (h : Step w e w') : Effect w e w' := by
  cases h with
  | @fetch cmd p q d ht hx hrun =>
      rw [fetchGeneration_run] at hrun
      cases hrun
      exact .fetch cmd p
  | @post env job b d hjob hrun =>
      obtain ⟨log, hd, hlog⟩ := postInstance_daemon env job.cmd job.principal w.daemon
      rw [hrun] at hd
      rw [show d = _ from hd]
      exact .post rfl hjob hlog (Or.inl rfl)
  | @postThrow env job e d hjob hrun =>
      obtain ⟨log, hd, hlog⟩ := postInstance_daemon env job.cmd job.principal w.daemon
      rw [hrun] at hd
      rw [show d = _ from hd]
      exact .post rfl hjob hlog (Or.inr rfl)
  | insert hjob hrun =>
      rw [insertPrincipal_run] at hrun
      cases hrun
      exact .insert hjob
  | @erase env cmd p l d ht hx hrun =>
      rcases lookupAndErase_cases env cmd p w.daemon with ⟨r, hcase⟩ | ⟨l', hcase⟩
      · rw [hcase] at hrun
        cases hrun
      · rw [hcase] at hrun
        cases hrun
        exact .erase cmd p _
  | @keep env cmd p r d ht hx hrun =>
      rcases lookupAndErase_cases env cmd p w.daemon with ⟨r', hcase⟩ | ⟨l, hcase⟩
      · rw [hcase] at hrun
        cases hrun
        exact .nothing rfl
      · rw [hcase] at hrun
        cases hrun
  | @postDeletion env job x d hjob hrun =>
      obtain ⟨log, hd, hlog⟩ := postDeletion_daemon env job.cmd job.principal w.daemon
      rw [hrun] at hd
      rw [show d = _ from hd]
      exact .postDeletion _ hlog
  | @look env cmd x d ht hrun =>
      have hd := getLocalPrincipal_daemon env cmd w.daemon
      rw [hrun] at hd
      rw [show d = _ from hd]
      exact .nothing rfl

/-! ## The invariant -/

/-- The generations posted, with those of the creations still to post. -/
def issued (named : List Principal) (fetched : List Job) : List UInt64 :=
  named.map Principal.gn ++ fetched.map Job.gn

/-- The generations in the table, with those of the creations still to insert. -/
def kept (principals : List (UInt64 × Principal)) (posted : List Job) : List UInt64 :=
  principals.map (fun e => e.2.gn) ++ posted.map Job.gn

/-- After `n` fetches, with the principals `named` posted so far. -/
structure Inv (n : ℕ) (named : List Principal) (w : World) : Prop where
  count : w.daemon.gn.toNat = n
  posted : postedNames w.daemon.exchanges = named.map principalName
  /-- no generation is given out twice -/
  issued_nodup : (issued named w.fetched).Nodup
  below : ∀ g ∈ issued named w.fetched, g.toNat < n
  /-- no generation is inserted twice, and only posted ones are -/
  kept_nodup : (kept w.daemon.principals w.posted).Nodup
  known : ∀ g ∈ kept w.daemon.principals w.posted, g ∈ named.map Principal.gn
  own : ∀ e ∈ w.daemon.principals, e.1 = e.2.id

lemma Inv.initial : Inv 0 [] {} where
  count := rfl
  posted := rfl
  issued_nodup := List.nodup_nil
  below := nofun
  kept_nodup := List.nodup_nil
  known := nofun
  own := nofun

/-- A creation that posts moves from the ones in flight to the ones posted. -/
lemma issued_post {named : List Principal} {fetched : List Job} {job : Job}
    (hjob : job ∈ fetched) :
    (issued (named ++ [job.principal]) (fetched.erase job)).Perm (issued named fetched) := by
  unfold issued
  rw [List.map_append, List.append_assoc]
  refine List.Perm.append_left _ ?_
  exact ((List.perm_cons_erase hjob).map Job.gn).symm

/-- A creation that is inserted moves from the ones in flight to the table. -/
lemma kept_insert {principals : List (UInt64 × Principal)} {posted : List Job} {job : Job}
    (hjob : job ∈ posted) (id speaker : UInt64) :
    (kept ((id, { job.principal with speaker := speaker }) :: principals) (posted.erase job)).Perm
      (kept principals posted) := by
  unfold kept
  have hperm := ((List.perm_cons_erase hjob).map Job.gn).append_left
    (principals.map fun e => e.2.gn)
  exact (hperm.trans List.perm_middle).symm

variable {n : ℕ} {named : List Principal} {w : World}

lemma Inv.fetch (hw : Inv n named w) (hn : n + 1 < 2 ^ 64) (cmd : Command) (p : Principal) :
    Inv (n + 1) named { w with
      daemon := { w.daemon with gn := w.daemon.gn + 1 }
      fetched := ⟨cmd, { p with gn := w.daemon.gn }⟩ :: w.fetched } where
  count := by
    have hone : (1 : UInt64).toNat = 1 := rfl
    rw [UInt64.toNat_add, hw.count, hone, Nat.mod_eq_of_lt hn]
  posted := hw.posted
  issued_nodup := by
    have hfresh : w.daemon.gn ∉ issued named w.fetched := by
      intro hmem
      have hlt := hw.below _ hmem
      rw [hw.count] at hlt
      exact absurd hlt (lt_irrefl n)
    exact List.perm_middle.nodup_iff.mpr (List.nodup_cons.mpr ⟨hfresh, hw.issued_nodup⟩)
  below := by
    intro g hg
    rcases List.mem_cons.mp (List.perm_middle.mem_iff.mp hg) with rfl | hold
    · exact hw.count ▸ Nat.lt_succ_self n
    · exact (hw.below g hold).trans (Nat.lt_succ_self n)
  kept_nodup := hw.kept_nodup
  known := hw.known
  own := hw.own

/-- A creation posts its instance, and is inserted later or has failed. -/
lemma Inv.post (hw : Inv n named w) {job : Job} (hjob : job ∈ w.fetched) {log : List Exchange}
    (hlog : postedNames log = postedNames w.daemon.exchanges ++ [principalName job.principal])
    {posted : List Job} (hposted : posted = job :: w.posted ∨ posted = w.posted) :
    Inv n (named ++ [job.principal]) { w with
      daemon := { w.daemon with exchanges := log }
      fetched := w.fetched.erase job
      posted := posted } where
  count := hw.count
  posted := by
    rw [hlog, hw.posted, List.map_append]
    rfl
  issued_nodup := (issued_post hjob).nodup_iff.mpr hw.issued_nodup
  below := fun g hg => hw.below g ((issued_post hjob).mem_iff.mp hg)
  kept_nodup := by
    rcases hposted with rfl | rfl
    · -- the generation was in flight, so it is not among the posted ones
      have hgn : job.gn ∉ named.map Principal.gn := fun hmem =>
        (List.nodup_append.mp hw.issued_nodup).2.2 _ hmem _ (List.mem_map_of_mem hjob) rfl
      have hfresh : job.gn ∉ kept w.daemon.principals w.posted := fun hmem =>
        hgn (hw.known _ hmem)
      exact List.perm_middle.nodup_iff.mpr (List.nodup_cons.mpr ⟨hfresh, hw.kept_nodup⟩)
    · exact hw.kept_nodup
  known := by
    intro g hg
    rw [List.map_append, List.mem_append]
    rcases hposted with rfl | rfl
    · rcases List.mem_cons.mp (List.perm_middle.mem_iff.mp hg) with rfl | hold
      · exact Or.inr (List.mem_singleton_self _)
      · exact Or.inl (hw.known g hold)
    · exact Or.inl (hw.known g hg)
  own := hw.own

lemma Inv.insert (hw : Inv n named w) {job : Job} (hjob : job ∈ w.posted) :
    Inv n named { w with
      daemon := { w.daemon with
        principals := (job.principal.id, { job.principal with speaker := job.cmd.pid })
          :: w.daemon.principals }
      posted := w.posted.erase job } where
  count := hw.count
  posted := hw.posted
  issued_nodup := hw.issued_nodup
  below := hw.below
  kept_nodup := (kept_insert hjob _ _).nodup_iff.mpr hw.kept_nodup
  known := fun g hg => hw.known g ((kept_insert hjob _ _).mem_iff.mp hg)
  own := List.forall_mem_cons.mpr ⟨rfl, hw.own⟩

lemma Inv.erase (hw : Inv n named w) (id : UInt64) (deleting : List Job) :
    Inv n named { w with
      daemon := { w.daemon with principals := w.daemon.principals.filter fun e => e.1 ≠ id }
      deleting := deleting } := by
  have hsub : (kept (w.daemon.principals.filter fun e => e.1 ≠ id) w.posted).Sublist
      (kept w.daemon.principals w.posted) :=
    (List.filter_sublist.map _).append (List.Sublist.refl _)
  exact {
    count := hw.count
    posted := hw.posted
    issued_nodup := hw.issued_nodup
    below := hw.below
    kept_nodup := hsub.nodup hw.kept_nodup
    known := fun g hg => hw.known g (hsub.mem hg)
    own := fun e he => hw.own e (List.mem_of_mem_filter he) }

lemma Inv.deletion (hw : Inv n named w) {log : List Exchange}
    (hlog : postedNames log = postedNames w.daemon.exchanges) (deleting : List Job) :
    Inv n named { w with
      daemon := { w.daemon with exchanges := log }
      deleting := deleting } where
  count := hw.count
  posted := hlog.trans hw.posted
  issued_nodup := hw.issued_nodup
  below := hw.below
  kept_nodup := hw.kept_nodup
  known := hw.known
  own := hw.own

/-- **One step keeps the invariant**, as long as the counter does not wrap. -/
lemma Inv.step (hw : Inv n named w) {e : Event} {w' : World} (h : Step w e w')
    (hn : n + [e].countP Event.isFetch < 2 ^ 64) :
    ∃ named', Inv (n + [e].countP Event.isFetch) named' w' := by
  cases h.effect with
  | nothing he => exact ⟨named, by simpa [he] using hw⟩
  | fetch cmd p => exact ⟨named, hw.fetch hn cmd p⟩
  | post he hjob hlog hposted => exact ⟨_, by simpa [he] using hw.post hjob hlog hposted⟩
  | insert hjob => exact ⟨named, hw.insert hjob⟩
  | erase cmd p deleting => exact ⟨named, hw.erase p.id deleting⟩
  | postDeletion deleting hlog => exact ⟨named, hw.deletion hlog deleting⟩

/-- The invariant after every interleaving. -/
lemma inv_of_run {labels : List Event} (h : Run Step {} labels w)
    (hn : labels.countP Event.isFetch < 2 ^ 64) :
    ∃ named, Inv (labels.countP Event.isFetch) named w := by
  refine h.invariant (I := fun done w => done.countP Event.isFetch < 2 ^ 64 →
    ∃ named, Inv (done.countP Event.isFetch) named w) (fun _ => ⟨[], Inv.initial⟩) ?_ hn
  intro done e t u ih hstep hcount
  rw [List.countP_append] at hcount ⊢
  obtain ⟨named, ht⟩ := ih ((Nat.le_add_right _ _).trans_lt hcount)
  exact ht.step hstep hcount

/-! ## What follows -/

/-- Two principals of one name have one generation. -/
lemma gn_of_principalName {p q : Principal} (h : principalName p = principalName q) :
    p.gn = q.gn :=
  (Text.joined_injective h).2

lemma Inv.names_nodup (hw : Inv n named w) : (postedNames w.daemon.exchanges).Nodup := by
  have hgns : (named.map Principal.gn).Nodup := (List.nodup_append.mp hw.issued_nodup).1
  rw [hw.posted]
  exact List.pairwise_map.mpr
    ((List.pairwise_map.mp hgns).imp fun hne heq => hne (gn_of_principalName heq))

lemma Inv.gn_nodup (hw : Inv n named w) :
    (w.daemon.principals.map fun e => e.2.gn).Nodup :=
  (List.nodup_append.mp hw.kept_nodup).1

/-- A lookup answers with the greatest generation of its id, which is the only one of that
generation. -/
lemma Inv.lookup (hw : Inv n named w) (env : Env) {cmd : Command} {p : Principal}
    (hx : extractPrincipal cmd = some p) :
    ∃ r, getLocalPrincipal env cmd w.daemon = (.ok (some r), w.daemon) ∧
      ((∀ e ∈ w.daemon.principals, e.1 ≠ p.id) ∧ r = makeStatusResponse false "not found" ∨
        ∃ l, (p.id, l) ∈ w.daemon.principals ∧ r = makePrincipalResponse l ∧
          ∀ e ∈ w.daemon.principals, e.1 = p.id → e ≠ (p.id, l) → e.2.gn < l.gn) := by
  rw [getLocalPrincipal_run env hx]
  refine ⟨_, rfl, ?_⟩
  cases hl : latest env w.daemon p.id with
  | none => exact Or.inl ⟨(latest_eq_none env).mp hl, rfl⟩
  | some l =>
      refine Or.inr ⟨l, latest_mem env hl, rfl, fun e he hid hne => ?_⟩
      have hgn : e.2.gn ≠ l.gn := fun heq =>
        hne (List.inj_on_of_nodup_map hw.gn_nodup he (latest_mem env hl) heq)
      exact UInt64.lt_of_le_of_ne (latest_max env hl he hid) hgn

/-- A creation of principal `7`. -/
def createSeven : Command :=
  { type := .createPrincipal, pid := 100, statement := .packed (.principal { id := 7 }) }

/-- The creation of principal `7` that was given the generation `gn`. -/
def createSevenAt (gn : UInt64) : Job := ⟨createSeven, { id := 7, gn := gn }⟩

end Manager

end Libport
