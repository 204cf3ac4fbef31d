import Libport.Lib.Linearize
import Libport.Server.Instances

/-!
# The table as a shared object

The commands of different sessions overlap, and a creation that fetched an older generation may be
inserted after a younger one, which hides it.  Still the table answers as if its commands had been
served one at a time: a creation that is hidden when it is inserted could have been served just
before the one that hides it.

This rests on generations that differ, and so on the one step in which `World` takes a creation to
fetch its own from the plain counter `gn_`.

* `Told`: a step with what it tells its session; every step is one (`exists_told`).
* `Watch` notes for every command that reaches the table when it started and when it took its last
  step.  The deletion takes one step on the table, and a creation starts with its generation.
* `register`: the sequential object, which holds the newest principal of every id.
* `Explained`: what a list of operations has to do with the table.  `Explained.step` is one step.
* **`registry_linearizable`**: every interleaving of fewer than `2 ^ 64` creations has an order of
  its commands, in accordance with the times, in which each is answered as it was.
-/

namespace Libport

namespace Manager

/-! ## What the sessions are told -/

/-- The step tells its session nothing yet.  A deletion that erased is answered after its request,
going by the reply of the service. -/
def Event.silent : Event → Bool
  | fetched _ _ | posted _ | postThrew _ | erased _ _ | deletionPosted _ => true
  | inserted _ | notErased _ _ | looked _ => false

/-- A step, with the response of the command if this step decides on it. -/
inductive Told (w : World) : Event × Option Response → World → Prop
  | silent {e : Event} {w' : World} (h : Step w e w') (he : e.silent = true) : Told w (e, none) w'
  | inserted {job : Job} {w' : World} (h : Step w (.inserted job) w') :
      Told w (.inserted job, some (makeStatusResponse true "")) w'
  | kept (env : Env) {cmd : Command} {p : Principal} {r : Response} {d : Daemon}
      (ht : cmd.type = .deletePrincipal) (hx : extractPrincipal cmd = some p)
      (hrun : lookupAndErase env cmd p w.daemon = (.ok (.error r), d)) :
      Told w (.notErased cmd p, some r) { w with daemon := d }
  | looked (env : Env) {cmd : Command} {r : Response} {d : Daemon}
      (ht : cmd.type = .getLocalPrincipal)
      (hrun : getLocalPrincipal env cmd w.daemon = (.ok (some r), d)) :
      Told w (.looked cmd, some r) { w with daemon := d }

lemma Told.step {w w' : World} {l : Event × Option Response} (h : Told w l w') :
    Step w l.1 w' := by
  cases h with
  | silent h he => exact h
  | inserted h => exact h
  | kept env ht hx hrun => exact .keep env ht hx hrun
  | looked env ht hrun => exact .look env ht hrun

/-- The response to a lookup, when the newest principal of an id is known. -/
def lookedUp (newest : UInt64 → Option Principal) (cmd : Command) : Response :=
  match extractPrincipal cmd with
  | none => makeStatusResponse false "principal not found or mal-formed"
  | some p =>
      match newest p.id with
      | some l => makePrincipalResponse l
      | none => makeStatusResponse false "not found"

lemma getLocalPrincipal_lookedUp (env : Env) (cmd : Command) (d : Daemon) :
    getLocalPrincipal env cmd d = (.ok (some (lookedUp (latest env d) cmd)), d) := by
  cases hx : extractPrincipal cmd with
  | none =>
      rw [getLocalPrincipal, lookedUp, hx]
      rfl
  | some p =>
      rw [getLocalPrincipal_run env hx]
      cases hl : latest env d p.id <;> simp only [lookedUp, hx, hl]

/-- Every step tells something or nothing. -/
lemma exists_told {w w' : World} {e : Event} (h : Step w e w') : ∃ r, Told w (e, r) w' := by
  cases h with
  | insert hjob hrun => exact ⟨_, .inserted (.insert hjob hrun)⟩
  | keep env ht hx hrun => exact ⟨_, .kept env ht hx hrun⟩
  | @look env cmd x d ht hrun =>
      have hlook := getLocalPrincipal_lookedUp env cmd w.daemon
      obtain ⟨rfl, rfl⟩ := Prod.mk.inj (hrun.symm.trans hlook)
      exact ⟨_, .looked env ht hlook⟩
  | fetch ht hx hrun => exact ⟨none, .silent (.fetch ht hx hrun) rfl⟩
  | post env hjob hrun => exact ⟨none, .silent (.post env hjob hrun) rfl⟩
  | postThrow env hjob hrun => exact ⟨none, .silent (.postThrow env hjob hrun) rfl⟩
  | erase env ht hx hrun => exact ⟨none, .silent (.erase env ht hx hrun) rfl⟩
  | postDeletion env hjob hrun => exact ⟨none, .silent (.postDeletion env hjob hrun) rfl⟩

/-- The entry of a creation. -/
def storedPrincipal (job : Job) : Principal := { job.principal with speaker := job.cmd.pid }

/-- What a step makes of the table. -/
def Event.table : Event → List (UInt64 × Principal) → List (UInt64 × Principal)
  | inserted job, l => (job.principal.id, storedPrincipal job) :: l
  | erased _ p, l => l.filter fun e => e.1 ≠ p.id
  | _, l => l

lemma Step.table {w w' : World} {e : Event} (h : Step w e w') :
    w'.daemon.principals = e.table w.daemon.principals := by
  cases h with
  | fetch ht hx hrun =>
      rw [fetchGeneration_run] at hrun
      cases hrun
      rfl
  | @post env job b d hjob hrun =>
      obtain ⟨log, hd, -⟩ := postInstance_daemon env job.cmd job.principal w.daemon
      rw [hrun] at hd
      obtain rfl : d = _ := hd
      rfl
  | @postThrow env job e d hjob hrun =>
      obtain ⟨log, hd, -⟩ := postInstance_daemon env job.cmd job.principal w.daemon
      rw [hrun] at hd
      obtain rfl : d = _ := hd
      rfl
  | insert hjob hrun =>
      rw [insertPrincipal_run] at hrun
      cases hrun
      rfl
  | erase env ht hx hrun =>
      obtain ⟨-, -, rfl⟩ := lookupAndErase_ok hrun
      rfl
  | @keep env cmd p r d ht hx hrun =>
      rcases lookupAndErase_cases env cmd p w.daemon with ⟨r', hcase⟩ | ⟨l, hcase⟩
      · cases hcase.symm.trans hrun
        rfl
      · cases hcase.symm.trans hrun
  | @postDeletion env job x d hjob hrun =>
      obtain ⟨o, hd⟩ := postDeletion_exchanges env job.cmd job.principal w.daemon
      rw [hrun] at hd
      obtain rfl : d = _ := hd
      rfl
  | @look env cmd x d ht hrun =>
      have hd := getLocalPrincipal_daemon env cmd w.daemon
      rw [hrun] at hd
      obtain rfl : d = _ := hd
      rfl

/-- What is said where nothing is erased. -/
lemma lookupAndErase_error {env : Env} {cmd : Command} {p : Principal} {r : Response}
    {d d' : Daemon} (h : lookupAndErase env cmd p d = (.ok (.error r), d')) :
    (latest env d p.id = none ∧ r = makeStatusResponse false "latest principal not found") ∨
      ∃ l, latest env d p.id = some l ∧ ¬ (l.speaker = cmd.pid ∨ cmd.uid = 0) ∧
        r = makeStatusResponse false "privilege not matching" := by
  simp only [lookupAndErase, Action.bind_run, Action.get_run] at h
  cases hl : latest env d p.id with
  | none =>
      rw [hl] at h
      cases h
      exact Or.inl ⟨rfl, rfl⟩
  | some l =>
      rw [hl] at h
      split_ifs at h with hpriv
      · cases h
        exact Or.inr ⟨l, rfl, by simpa using hpriv, rfl⟩
      · cases h

/-! ## What an observer notes -/

/-- A command that has reached the table, or left it as it is: when it started, when it took its
last step on the table, that step, and what was told. -/
structure TableOp where
  start : ℕ
  finish : ℕ
  event : Event
  answer : Option Response

/-- An observer with a clock. -/
structure Watch where
  time : ℕ := 0
  /-- when each generation was given out -/
  started : List ℕ := []
  ops : List TableOp := []

namespace Watch

def tick (t : Watch) : Watch := { t with time := t.time + 1 }

/-- The command that started then takes its last step on the table. -/
def completed (t : Watch) (start : ℕ) (l : Event × Option Response) : Watch :=
  { t.tick with ops := t.ops ++ [⟨start, t.time, l.1, l.2⟩] }

def note (t : Watch) (l : Event × Option Response) : Watch :=
  match l.1 with
  | .fetched _ _ => { t.tick with started := t.started ++ [t.time] }
  | .inserted job => t.completed (t.started.getD job.gn.toNat t.time) l
  | .erased _ _ | .notErased _ _ | .looked _ => t.completed t.time l
  | .posted _ | .postThrew _ | .deletionPosted _ => t.tick

end Watch

/-- The notes on a run. -/
def watched (labels : List (Event × Option Response)) : Watch := labels.foldl Watch.note {}

lemma watched_concat (labels : List (Event × Option Response)) (l : Event × Option Response) :
    watched (labels ++ [l]) = (watched labels).note l := List.foldl_concat _ _ _ _

/-! ## The sequential object -/

/-- The newest principal of every id. -/
abbrev Register := UInt64 → Option Principal

/-- A creation writes, a deletion clears what its session may clear, and a lookup reads. -/
def register : SharedObject Register TableOp where
  effect m op :=
    match op.event with
    | .inserted job => Function.update m job.principal.id (some (storedPrincipal job))
    | .erased _ p => Function.update m p.id none
    | _ => m
  Allowed m op :=
    match op.event with
    | .inserted _ => op.answer = some (makeStatusResponse true "")
    | .erased cmd p => ∃ l, m p.id = some l ∧ (l.speaker = cmd.pid ∨ cmd.uid = 0)
    | .notErased cmd p =>
        (m p.id = none ∧
          op.answer = some (makeStatusResponse false "latest principal not found")) ∨
        ∃ l, m p.id = some l ∧ ¬ (l.speaker = cmd.pid ∨ cmd.uid = 0) ∧
          op.answer = some (makeStatusResponse false "privilege not matching")
    | .looked cmd => op.answer = some (lookedUp m cmd)
    | _ => False
  start := TableOp.start
  finish := TableOp.finish

lemma register_inserted (m : Register) (start finish : ℕ) (job : Job) (r : Option Response) :
    register.effect m ⟨start, finish, .inserted job, r⟩
      = Function.update m job.principal.id (some (storedPrincipal job)) := rfl

lemma register_erased (m : Register) (start finish : ℕ) (cmd : Command) (p : Principal)
    (r : Option Response) :
    register.effect m ⟨start, finish, .erased cmd p, r⟩ = Function.update m p.id none := rfl

/-- The operation does not clear the id. -/
def TableOp.Keeps (id : UInt64) (op : TableOp) : Prop :=
  ∀ cmd p, op.event = .erased cmd p → p.id ≠ id

lemma TableOp.keeps_of_inserted {op : TableOp} {job : Job} (h : op.event = .inserted job)
    (id : UInt64) : op.Keeps id := by
  intro cmd p heq
  cases h.symm.trans heq

/-- The operation wrote the entry. -/
def TableOp.Writes (e : UInt64 × Principal) (op : TableOp) : Prop :=
  ∃ job, op.event = .inserted job ∧ e = (job.principal.id, storedPrincipal job)

/-- The principal is the newest of its id. -/
def Newest (table : List (UInt64 × Principal)) (id : UInt64) (l : Principal) : Prop :=
  (id, l) ∈ table ∧ ∀ e ∈ table, e.1 = id → e.2.gn ≤ l.gn

lemma Inv.latest_iff {n : ℕ} {named : List Principal} {w : World} (hw : Inv n named w) (env : Env)
    {id : UInt64} {l : Principal} :
    latest env w.daemon id = some l ↔ Newest w.daemon.principals id l := by
  constructor
  · intro hl
    exact ⟨latest_mem env hl, fun e he hid => latest_max env hl he hid⟩
  · rintro ⟨hmem, hmax⟩
    cases hl : latest env w.daemon id with
    | none => exact absurd rfl ((latest_eq_none env).mp hl _ hmem)
    | some l' =>
        have hle := hmax _ (latest_mem env hl) rfl
        have hge := latest_max env hl hmem rfl
        have hgn : l'.gn = l.gn := UInt64.le_antisymm hle hge
        have heq := List.inj_on_of_nodup_map hw.gn_nodup (latest_mem env hl) hmem hgn
        rw [(Prod.mk.inj heq).2]

/-! ## The newest principals -/

section
variable {table : List (UInt64 × Principal)} {id id' : UInt64} {l q : Principal}

lemma newest_cons (hnewer : ∀ e ∈ table, e.1 = id → e.2.gn < q.gn) :
    Newest ((id, q) :: table) id' l ↔ if id' = id then l = q else Newest table id' l := by
  split_ifs with hid
  · subst hid
    constructor
    · rintro ⟨hmem, hmax⟩
      rcases List.mem_cons.mp hmem with heq | hmem
      · exact (Prod.mk.inj heq).2
      · exact absurd (hmax _ List.mem_cons_self rfl) (UInt64.not_le.mpr (hnewer _ hmem rfl))
    · rintro rfl
      refine ⟨List.mem_cons_self, fun e he heid => ?_⟩
      rcases List.mem_cons.mp he with rfl | he
      · exact UInt64.le_refl _
      · exact UInt64.le_of_lt (hnewer e he heid)
  · simp only [Newest, List.mem_cons, Prod.mk.injEq, hid, false_and, false_or,
      forall_eq_or_imp]
    exact and_congr_right fun _ => ⟨And.right, fun h => ⟨fun heq => absurd heq.symm hid, h⟩⟩

lemma newest_cons_hidden {e : UInt64 × Principal} (he : e ∈ table) (hid : e.1 = id)
    (hnewer : q.gn < e.2.gn) : Newest ((id, q) :: table) id' l ↔ Newest table id' l := by
  constructor
  · rintro ⟨hmem, hmax⟩
    refine ⟨?_, fun e' he' => hmax e' (List.mem_cons_of_mem _ he')⟩
    rcases List.mem_cons.mp hmem with heq | hmem
    · obtain ⟨rfl, rfl⟩ := Prod.mk.inj heq
      exact absurd (hmax e (List.mem_cons_of_mem _ he) hid) (UInt64.not_le.mpr hnewer)
    · exact hmem
  · rintro ⟨hmem, hmax⟩
    refine ⟨List.mem_cons_of_mem _ hmem, fun e' he' heid => ?_⟩
    rcases List.mem_cons.mp he' with rfl | he'
    · exact UInt64.le_of_lt (UInt64.lt_of_lt_of_le hnewer (hmax e he (hid.trans heid)))
    · exact hmax e' he' heid

lemma newest_filter :
    Newest (table.filter fun e => e.1 ≠ id) id' l ↔ id' ≠ id ∧ Newest table id' l := by
  constructor
  · rintro ⟨hmem, hmax⟩
    obtain ⟨hmem, hne⟩ := List.mem_filter.mp hmem
    have hne : id' ≠ id := by simpa using hne
    refine ⟨hne, hmem, fun e he heid => hmax e (List.mem_filter.mpr ⟨he, ?_⟩) heid⟩
    simpa [heid] using hne
  · rintro ⟨hne, hmem, hmax⟩
    refine ⟨List.mem_filter.mpr ⟨hmem, by simpa using hne⟩, fun e he heid => ?_⟩
    exact hmax e (List.mem_of_mem_filter he) heid

end

/-! ## The order of the operations -/

/-- The order explains the table after `n` fetches: it is one for what was noted, what is newest is
what it writes last, and the operation that wrote an entry is followed by no erase of its id. -/
structure Explained (n : ℕ) (table : List (UInt64 × Principal)) (t : Watch)
    (order : List TableOp) : Prop where
  count : t.started.length = n
  past : ∀ s ∈ t.started, s < t.time
  sorted : t.started.Pairwise (· < ·)
  spans : ∀ op ∈ t.ops, op.start ≤ op.finish ∧ op.finish < t.time
  linear : register.Linearizes (fun _ => none) t.ops order
  newest : ∀ id l, register.replay (fun _ => none) order id = some l ↔ Newest table id l
  entries : ∀ e ∈ table, ∃ op, Since (TableOp.Keeps e.1) op order ∧ op.Writes e ∧
    t.started[e.2.gn.toNat]? = some op.start

namespace Explained

lemma initial : Explained 0 [] {} [] where
  count := rfl
  past := fun s hs => absurd hs List.not_mem_nil
  sorted := List.Pairwise.nil
  spans := fun op hop => absurd hop List.not_mem_nil
  linear := SharedObject.linearizes_nil
  newest := fun id l => iff_of_false (by simp) fun h => absurd h.1 List.not_mem_nil
  entries := fun e he => absurd he List.not_mem_nil

variable {n : ℕ} {table : List (UInt64 × Principal)} {t : Watch} {order : List TableOp}

lemma tick (h : Explained n table t order) : Explained n table t.tick order where
  count := h.count
  past := fun s hs => (h.past s hs).trans (Nat.lt_succ_self _)
  sorted := h.sorted
  spans := fun op hop => ⟨(h.spans op hop).1, (h.spans op hop).2.trans (Nat.lt_succ_self _)⟩
  linear := h.linear
  newest := h.newest
  entries := h.entries

/-- A generation is given out. -/
lemma fetched (h : Explained n table t order) :
    Explained (n + 1) table { t.tick with started := t.started ++ [t.time] } order where
  count := by rw [List.length_append, h.count, List.length_singleton]
  past := List.forall_mem_append.mpr
    ⟨h.tick.past, List.forall_mem_singleton.mpr (Nat.lt_succ_self _)⟩
  sorted := by
    refine List.pairwise_append.mpr ⟨h.sorted, List.pairwise_singleton _ _, fun s hs s' hs' => ?_⟩
    rw [List.mem_singleton.mp hs']
    exact h.past s hs
  spans := h.tick.spans
  linear := h.linear
  newest := h.newest
  entries := by
    intro e he
    obtain ⟨op, hsince, hwrites, hstart⟩ := h.entries e he
    refine ⟨op, hsince, hwrites, ?_⟩
    rw [List.getElem?_append_left (List.getElem?_eq_some_iff.mp hstart).1]
    exact hstart

lemma start_le (h : Explained n table t order) (k : ℕ) : t.started.getD k t.time ≤ t.time := by
  rw [List.getD_eq_getElem?_getD]
  cases hk : t.started[k]? with
  | none => exact le_refl _
  | some s => exact (h.past s (List.mem_of_getElem? hk)).le

lemma now (h : Explained n table t order) : ∀ op ∈ t.ops, op.start ≤ t.time :=
  fun op hop => (h.spans op hop).1.trans (h.spans op hop).2.le

lemma spans_completed (h : Explained n table t order) {start : ℕ} (hstart : start ≤ t.time)
    (l : Event × Option Response) :
    ∀ op ∈ (t.completed start l).ops, op.start ≤ op.finish ∧ op.finish < t.time + 1 :=
  List.forall_mem_append.mpr
    ⟨h.tick.spans, List.forall_mem_singleton.mpr ⟨hstart, Nat.lt_succ_self _⟩⟩

/-- A command that finds the table as it is. -/
lemma read (h : Explained n table t order) {e : Event} {r : Option Response}
    (hsame : ∀ m, register.effect m ⟨t.time, t.time, e, r⟩ = m)
    (hkeeps : ∀ cmd p, e ≠ .erased cmd p)
    (hallowed : register.Allowed (register.replay (fun _ => none) order) ⟨t.time, t.time, e, r⟩) :
    Explained n table (t.completed t.time (e, r)) (order ++ [⟨t.time, t.time, e, r⟩]) where
  count := h.count
  past := h.tick.past
  sorted := h.sorted
  spans := h.spans_completed (le_refl _) _
  linear := h.linear.concat h.now hallowed
  newest := by
    intro id l
    rw [SharedObject.replay_concat, hsame]
    exact h.newest id l
  entries := by
    intro e' he
    obtain ⟨op, hsince, hwrites⟩ := h.entries e' he
    exact ⟨op, hsince.concat fun cmd p heq => absurd heq (hkeeps cmd p), hwrites⟩

/-- A deletion clears its id. -/
lemma erased (h : Explained n table t order) {cmd : Command} {p l : Principal}
    (hl : Newest table p.id l) (hallowed : l.speaker = cmd.pid ∨ cmd.uid = 0)
    (r : Option Response) :
    Explained n (table.filter fun e => e.1 ≠ p.id) (t.completed t.time (.erased cmd p, r))
      (order ++ [⟨t.time, t.time, .erased cmd p, r⟩]) where
  count := h.count
  past := h.tick.past
  sorted := h.sorted
  spans := h.spans_completed (le_refl _) _
  linear := h.linear.concat h.now ⟨l, (h.newest _ _).mpr hl, hallowed⟩
  newest := by
    intro id l'
    rw [SharedObject.replay_concat, register_erased, Function.update_apply, newest_filter,
      ← h.newest id l']
    split_ifs with hid
    · exact iff_of_false nofun fun hne => hne.1 hid
    · exact (and_iff_right hid).symm
  entries := by
    intro e he
    obtain ⟨he, hne⟩ := List.mem_filter.mp he
    obtain ⟨op, hsince, hwrites⟩ := h.entries e he
    refine ⟨op, hsince.concat fun cmd' p' heq => ?_, hwrites⟩
    cases heq
    exact Ne.symm (of_decide_eq_true hne)

/-- A creation of a new newest generation. -/
lemma written (h : Explained n table t order) {job : Job} (hgn : job.gn.toNat < n)
    (hnewer : ∀ e ∈ table, e.1 = job.principal.id → e.2.gn < job.gn) :
    ∃ order', Explained n ((Event.inserted job).table table)
      (t.note (.inserted job, some (makeStatusResponse true ""))) order' := by
  have hlast : job.gn.toNat < t.started.length := h.count.symm ▸ hgn
  refine ⟨order ++ [⟨t.started.getD job.gn.toNat t.time, t.time, .inserted job,
    some (makeStatusResponse true "")⟩], ?_⟩
  exact {
    count := h.count
    past := h.tick.past
    sorted := h.sorted
    spans := h.spans_completed (h.start_le _) _
    linear := h.linear.concat h.now rfl
    newest := by
      intro id l
      have hcons := @newest_cons table job.principal.id id l (storedPrincipal job) hnewer
      rw [SharedObject.replay_concat, register_inserted, Function.update_apply, Event.table, hcons]
      split_ifs with hid
      · rw [Option.some_inj, eq_comm]
      · exact h.newest id l
    entries := by
      intro e he
      rcases List.mem_cons.mp he with rfl | he
      · refine ⟨_, Since.last, ⟨job, rfl, rfl⟩, ?_⟩
        rw [List.getD_eq_getElem?_getD, List.getElem?_eq_getElem hlast]
        exact List.getElem?_eq_getElem hlast
      · obtain ⟨op, hsince, hwrites⟩ := h.entries e he
        exact ⟨op, hsince.concat (TableOp.keeps_of_inserted rfl _), hwrites⟩ }

/-- **A creation that is hidden** is put before the one that hides it. -/
lemma hidden (h : Explained n table t order) {job : Job} {e : UInt64 × Principal} (he : e ∈ table)
    (hid : e.1 = job.principal.id) (hnewer : job.gn < e.2.gn) :
    ∃ order', Explained n ((Event.inserted job).table table)
      (t.note (.inserted job, some (makeStatusResponse true ""))) order' := by
  obtain ⟨b, ⟨front, back, rfl, hback⟩, ⟨job', hevent, hentry⟩, hstart⟩ := h.entries e he
  obtain ⟨hlast, hstart⟩ := List.getElem?_eq_some_iff.mp hstart
  have hlt : job.gn.toNat < e.2.gn.toNat := UInt64.lt_iff_toNat_lt.mp hnewer
  have hown : job.gn.toNat < t.started.length := hlt.trans hlast
  have hbefore : t.started.getD job.gn.toNat t.time ≤ b.start := by
    rw [List.getD_eq_getElem?_getD, List.getElem?_eq_getElem hown, ← hstart]
    exact (List.pairwise_iff_getElem.mp h.sorted _ _ hown hlast hlt).le
  have hb : b ∈ t.ops := h.linear.perm.mem_iff.mp (by simp)
  have hsame : job'.principal.id = job.principal.id := by rw [← hid, hentry]
  set a : TableOp := ⟨t.started.getD job.gn.toNat t.time, t.time, .inserted job,
    some (makeStatusResponse true "")⟩ with ha
  have hover : ∀ m, register.effect (register.effect m a) b = register.effect m b := by
    intro m
    have hb' : ∀ m', register.effect m' b
        = Function.update m' job'.principal.id (some (storedPrincipal job')) := by
      intro m'
      simp only [register, hevent]
    rw [hb', hb', ha, register_inserted, hsame, Function.update_idem]
  have hlinear : register.Linearizes (fun _ => none) (t.ops ++ [a]) (front ++ a :: b :: back) := by
    refine h.linear.insert h.now hbefore (h.spans b hb).1 rfl (hover _) fun hallowed => ?_
    simpa [register, hevent] using hallowed
  refine ⟨front ++ a :: b :: back, ?_⟩
  exact {
    count := h.count
    past := h.tick.past
    sorted := h.sorted
    spans := h.spans_completed (h.start_le _) _
    linear := hlinear
    newest := by
      intro id l
      have hcons := @newest_cons_hidden table job.principal.id id l (storedPrincipal job) e he hid
        hnewer
      rw [SharedObject.replay_insert (hover _), Event.table, hcons]
      exact h.newest id l
    entries := by
      intro e' he'
      rcases List.mem_cons.mp he' with rfl | he'
      · refine ⟨a, ⟨front, b :: back, rfl, ?_⟩, ⟨job, rfl, rfl⟩, ?_⟩
        · exact List.forall_mem_cons.mpr ⟨TableOp.keeps_of_inserted hevent _, hid ▸ hback⟩
        · rw [ha, List.getD_eq_getElem?_getD, List.getElem?_eq_getElem hown]
          exact List.getElem?_eq_getElem hown
      · obtain ⟨op, hsince, hwrites⟩ := h.entries e' he'
        exact ⟨op, hsince.insert (TableOp.keeps_of_inserted rfl _), hwrites⟩ }

end Explained

/-! ## Runs -/

/-- A generation of a creation that is about to be inserted has been given out, and is not in the
table. -/
lemma Inv.posted_gn {n : ℕ} {named : List Principal} {w : World} (hw : Inv n named w) {job : Job}
    (hjob : job ∈ w.posted) :
    job.gn.toNat < n ∧ ∀ e ∈ w.daemon.principals, e.2.gn ≠ job.gn := by
  have hmem := List.mem_map_of_mem (f := Job.gn) hjob
  constructor
  · have hknown := hw.known job.gn (List.mem_append_right _ hmem)
    exact hw.below _ (List.mem_append_left _ hknown)
  · intro e he
    have hapart := (List.nodup_append.mp hw.kept_nodup).2.2
    exact hapart _ (List.mem_map_of_mem (f := fun e => e.2.gn) he) _ hmem

/-- The newest principals are what the order has written last. -/
lemma Explained.replay_eq {n : ℕ} {named : List Principal} {w : World} {t : Watch}
    {order : List TableOp} (hinv : Inv n named w)
    (h : Explained n w.daemon.principals t order) (env : Env) :
    register.replay (fun _ => none) order = latest env w.daemon := by
  funext id
  refine Option.ext fun l => ?_
  rw [h.newest id l, hinv.latest_iff env]

/-- **One step of any command.** -/
lemma Explained.step {n : ℕ} {named : List Principal} {w w' : World} {t : Watch}
    {order : List TableOp} {l : Event × Option Response} (hinv : Inv n named w)
    (h : Explained n w.daemon.principals t order) (hstep : Told w l w') :
    ∃ order',
      Explained (n + [l.1].countP Event.isFetch) w'.daemon.principals (t.note l) order' := by
  rw [hstep.step.table]
  cases hstep with
  | silent hs he =>
      cases hs with
      | fetch ht hx hrun => exact ⟨order, h.fetched⟩
      | post env hjob hrun => exact ⟨order, h.tick⟩
      | postThrow env hjob hrun => exact ⟨order, h.tick⟩
      | postDeletion env hjob hrun => exact ⟨order, h.tick⟩
      | erase env ht hx hrun =>
          obtain ⟨hl, hallowed, -⟩ := lookupAndErase_ok hrun
          exact ⟨_, h.erased ((hinv.latest_iff env).mp hl) hallowed none⟩
      | insert => cases he
      | keep => cases he
      | look => cases he
  | @inserted job w' hs =>
      cases hs with
      | insert hjob hrun =>
          obtain ⟨hgn, hne⟩ := hinv.posted_gn hjob
          by_cases hhidden : ∃ e ∈ w.daemon.principals,
              e.1 = job.principal.id ∧ job.gn < e.2.gn
          · obtain ⟨e, he, hid, hnewer⟩ := hhidden
            exact h.hidden he hid hnewer
          · refine h.written hgn fun e he hid => ?_
            refine UInt64.lt_of_le_of_ne (UInt64.not_lt.mp fun hlt => ?_) (hne e he)
            exact hhidden ⟨e, he, hid, hlt⟩
  | @kept env cmd p r d ht hx hrun =>
      refine ⟨_, @Explained.read _ _ _ _ h (.notErased cmd p) (some r) (fun m => rfl)
        (fun _ _ heq => by cases heq) ?_⟩
      rw [h.replay_eq hinv env]
      rcases lookupAndErase_error hrun with ⟨hl, rfl⟩ | ⟨l, hl, hpriv, rfl⟩
      · exact Or.inl ⟨hl, rfl⟩
      · exact Or.inr ⟨l, hl, hpriv, rfl⟩
  | @looked env cmd r d ht hrun =>
      refine ⟨_, @Explained.read _ _ _ _ h (.looked cmd) (some r) (fun m => rfl)
        (fun _ _ heq => by cases heq) ?_⟩
      rw [h.replay_eq hinv env]
      obtain ⟨hr, -⟩ := Prod.mk.inj (hrun.symm.trans (getLocalPrincipal_lookedUp env cmd w.daemon))
      exact Except.ok.inj hr

/-- The order after every interleaving. -/
lemma explained_of_run {labels : List (Event × Option Response)} {w : World}
    (hrun : Run Told {} labels w) (hcreates : labels.countP (fun l => l.1.isFetch) < 2 ^ 64) :
    (∃ named, Inv (labels.countP fun l => l.1.isFetch) named w) ∧ ∃ order,
      Explained (labels.countP fun l => l.1.isFetch) w.daemon.principals (watched labels)
        order := by
  refine hrun.invariant (I := fun done w => done.countP (fun l => l.1.isFetch) < 2 ^ 64 →
    (∃ named, Inv (done.countP fun l => l.1.isFetch) named w) ∧ ∃ order,
      Explained (done.countP fun l => l.1.isFetch) w.daemon.principals (watched done) order)
    (fun _ => ⟨⟨[], Inv.initial⟩, [], Explained.initial⟩) ?_ hcreates
  intro done l t u ih hstep hcount
  have hone : [l].countP (fun l => l.1.isFetch) = [l.1].countP Event.isFetch := by
    simp [List.countP_cons]
  rw [List.countP_append, hone] at hcount ⊢
  obtain ⟨⟨named, hinv⟩, order, h⟩ := ih ((Nat.le_add_right _ _).trans_lt hcount)
  rw [watched_concat]
  exact ⟨hinv.step hstep.step hcount, h.step hinv hstep⟩

/-- **The table is linearizable.**  For every interleaving of fewer than `2 ^ 64` creations, each of
which fetches its generation in one step, there is an order of the commands that reached the table,
in which a command that took its last step before another one started comes before it, and in which
the commands served one at a time get the answers they got and leave the newest principals that
there are. -/
theorem registry_linearizable {labels : List (Event × Option Response)} {w : World}
    (hrun : Run Told {} labels w) (hcreates : labels.countP (fun l => l.1.isFetch) < 2 ^ 64) :
    ∃ order, order.Perm (watched labels).ops ∧ register.RealTime order ∧
      register.Legal (fun _ => none) order ∧
      ∀ env, latest env w.daemon = register.replay (fun _ => none) order := by
  obtain ⟨⟨named, hinv⟩, order, h⟩ := explained_of_run hrun hcreates
  exact ⟨order, h.linear.perm, h.linear.realTime, h.linear.legal,
    fun env => (h.replay_eq hinv env).symm⟩

/-- Two creations of one id, a lookup between their insertions and one after them. -/
theorem registry_linearizable_hidden : ∃ labels w, Run Told {} labels w ∧
    w.daemon.principals.map (fun e => e.2.gn) = [0, 1] ∧
    ∃ order, order.Perm (watched labels).ops ∧ register.RealTime order ∧
      register.Legal (fun _ => none) order := by
  let service : Env := .inOrder fun _ =>
    .replied ⟨200, .ok (.object [("message", .string "['key']")])⟩
  let look : Command := { createSeven with type := .getLocalPrincipal }
  have hfetched := ((@Run.nil _ _ Told {}).snoc
    (.silent (.fetch (show createSeven.type = _ from rfl) rfl rfl) rfl)).snoc
      (.silent (.fetch (show createSeven.type = _ from rfl) rfl rfl) rfl)
  have hyounger := (hfetched.snoc
      (.silent (.post service (show createSevenAt 1 ∈ _ from List.mem_cons_self) rfl) rfl)).snoc
    (.inserted (.insert List.mem_cons_self rfl))
  have hlooked := hyounger.snoc (.looked service (show look.type = _ from rfl) rfl)
  have holder := (hlooked.snoc
      (.silent (.post service (show createSevenAt 0 ∈ _ by decide) rfl) rfl)).snoc
    (.inserted (.insert List.mem_cons_self rfl))
  have hrun := holder.snoc (.looked service (show look.type = _ from rfl) rfl)
  obtain ⟨order, hperm, htime, hlegal, -⟩ := registry_linearizable hrun (by decide)
  exact ⟨_, _, hrun, rfl, order, hperm, htime, hlegal⟩

end Manager

end Libport
