import Libport.Server.Plan
import Libport.Tools.Grants

/-!
# The stub in the place of the metadata service

The client posts requests and gets outcomes; the stub serves requests one after the other.  A log
of exchanges is backed by the stub if each outcome is what the stub answers in the state that the
requests before have left.

* `routeOf`: the routes of the stub.
* `Wire`: what lies between the two, the reader of JSON texts, a connection that breaks off, and the
  router, which is only known to send a path of letters on its own route.  A path on no route is
  answered by the echo server below, of which nothing is assumed.
* `Backed`: the logs that the stub has answered; `storeOf` is the state it is in then.
* `storeOf_routed`: after a request on a route it is what the handler leaves.
* `Backed.last`: what is known of the last exchange of such a log.
-/

namespace Libport

namespace MetadataStub

/-! ## Routes -/

/-- A handler with a route: one that changes the store, or one of the three that only ask. -/
inductive Route
  | post (op : Op)
  | updateSubjectSet
  | attestAppProperty
  | attestObjectAccess

/-- `server.AddRoute`. -/
def routeOf (path : String) : Option Route :=
  if path = "/postInstanceSet" then some (.post .postInstanceSet)
  else if path = "/retractInstanceSet" then some (.post .retractInstanceSet)
  else if path = "/updateSubjectSet" then some .updateSubjectSet
  else if path = "/postAttesterImage" then some (.post .postAttesterImage)
  else if path = "/postImageProperty" then some (.post .postImageProperty)
  else if path = "/postObjectAcl" then some (.post .postObjectAcl)
  else if path = "/attestAppProperty" then some .attestAppProperty
  else if path = "/appAccessesObject" then some .attestObjectAccess
  else none

def Route.handler (order : List Principal) :
    Route → TestStore → Option MetadataRequest → Served
  | post op => op.handler
  | updateSubjectSet => MetadataStub.updateSubjectSet
  | attestAppProperty => MetadataStub.attestAppProperty order
  | attestObjectAccess => MetadataStub.attestObjectAccess order

/-! ## The wire -/

/-- What the client makes of the body of a reply and of a connection that is dropped, and what the
router makes of a path, which may have a query, a fragment or an escape in it. -/
structure Wire where
  extractJson : String → Except BodyError Json
  dropped : RequestError
  route : String → Option Route
  /-- a path of letters is itself -/
  route_plain : ∀ path, isPlainPath path = true → route path = routeOf path

lemma Wire.route_eq {wire : Wire} {path speaker bearer : String} {values : List String}
    {found : Option Route} (hpath : isPlainPath path = true) (hroute : routeOf path = found) :
    wire.route (formatRequest path speaker values bearer).path = found :=
  (wire.route_plain path hpath).trans hroute

/-- A text that stands for itself between the quotes of a JSON string. -/
def Plain (s : String) : Prop := ∀ c ∈ s.toList, c ≠ '"' ∧ c ≠ '\\' ∧ 32 ≤ c.toNat

/-- The replies of the stub, read as JSON: an object with the message, and no object in an empty
body. -/
structure Wire.Reads (wire : Wire) : Prop where
  key : ∀ name, Plain name → wire.extractJson (r#"{"message":"['"# ++ name ++ r#"']"}"#)
    = .ok (.object [("message", .string ("['" ++ name ++ "']"))])
  hasProperty :
    wire.extractJson r#"{"message": "{ 'void':programHasProperty('','') }"}"#
      = .ok (.object [("message", .string r#"{ 'void':programHasProperty('','') }"#)])
  access : wire.extractJson approveAccess.body
    = .ok (.object [("message", .string r#"{ 'void':approveAccess('','') }"#)])
  empty : ∀ fields, wire.extractJson "" ≠ .ok (.object fields)

/-- The request as the stub decodes it. -/
def decoded (r : Request) : MetadataRequest := ⟨r.principal, r.otherValues⟩

/-- What the client is answered; a handler that panics has its connection dropped. -/
def Wire.outcome (wire : Wire) : Served → Outcome
  | some (response, _) => .replied ⟨response.status, wire.extractJson response.body⟩
  | none => .failed wire.dropped

/-! ## Logs -/

section
variable (wire : Wire)

/-- The call behind a request that may change the store. -/
def callOf (r : Request) : Option Call :=
  match wire.route r.path with
  | some (.post op) => some ⟨op, some (decoded r)⟩
  | _ => none

def callsOf (log : List Exchange) : List Call := log.filterMap fun e => callOf wire e.request

/-- The store after a log. -/
def storeOf (log : List Exchange) : TestStore := (history (callsOf wire log)).1

/-- The stub has answered all requests of the log. -/
inductive Backed : List Exchange → Prop
  | start : Backed []
  | routed {log : List Exchange} {order : List Principal} {r : Request} {route : Route}
      (h : Backed log) (horder : order.Perm (storeOf wire log).stored)
      (hroute : wire.route r.path = some route) :
      Backed
        (log ++ [⟨r, wire.outcome (route.handler order (storeOf wire log) (some (decoded r)))⟩])
  | elsewhere {log : List Exchange} {e : Exchange} (h : Backed log)
      (hroute : wire.route e.request.path = none) : Backed (log ++ [e])

end

section
variable {wire : Wire} {log : List Exchange} {r : Request} {outcome : Outcome} {route : Route}

lemma callsOf_append (log log' : List Exchange) :
    callsOf wire (log ++ log') = callsOf wire log ++ callsOf wire log' := List.filterMap_append

/-- A request that posts is served on the store of the log. -/
lemma storeOf_posted {op : Op} (hroute : wire.route r.path = some (.post op)) (outcome : Outcome) :
    storeOf wire (log ++ [⟨r, outcome⟩])
      = (Call.serve (storeOf wire log) ⟨op, some (decoded r)⟩).2 := by
  have hcall : callsOf wire [⟨r, outcome⟩] = [⟨op, some (decoded r)⟩] := by
    simp [callsOf, callOf, hroute]
  rw [storeOf, callsOf_append, hcall, history_concat]
  rfl

/-- A request to a path of letters on no route of the stub. -/
lemma callOf_elsewhere {path speaker bearer : String} {values : List String}
    (hpath : isPlainPath path = true) (hroute : routeOf path = none) :
    callOf wire (formatRequest path speaker values bearer) = none := by
  unfold callOf
  rw [wire.route_eq hpath hroute]

/-- Any other request leaves it as it is. -/
lemma storeOf_other (hroute : ∀ op, wire.route r.path ≠ some (.post op)) (outcome : Outcome) :
    storeOf wire (log ++ [⟨r, outcome⟩]) = storeOf wire log := by
  have hcall : callsOf wire [⟨r, outcome⟩] = [] := by
    refine List.filterMap_cons_none ?_
    unfold callOf
    split
    · rename_i op h
      exact absurd h (hroute op)
    · rfl
  rw [storeOf, callsOf_append, hcall, List.append_nil]
  rfl

/-- **A request on a route** leaves the store that its handler leaves, or, where that panics, the
store as it was. -/
lemma storeOf_routed (hroute : wire.route r.path = some route) (order : List Principal)
    (outcome : Outcome) :
    storeOf wire (log ++ [⟨r, outcome⟩])
      = ((route.handler order (storeOf wire log) (some (decoded r))).map Prod.snd).getD
          (storeOf wire log) := by
  have hasks : ∀ {served : Served}, Asks (storeOf wire log) served →
      (∀ op, route ≠ .post op) → storeOf wire (log ++ [⟨r, outcome⟩])
        = (served.map Prod.snd).getD (storeOf wire log) := by
    intro served h hother
    rw [storeOf_other fun op heq => hother op (Option.some.inj (hroute.symm.trans heq))]
    cases served with
    | none => rfl
    | some left => exact (h left rfl).symm
  cases route with
  | post op =>
      rw [storeOf_posted hroute, Call.serve, Route.handler]
      cases op.handler (storeOf wire log) (some (decoded r)) <;> rfl
  | updateSubjectSet => exact hasks (asks_updateSubjectSet _) fun _ h => by cases h
  | attestAppProperty => exact hasks (asks_attestAppProperty order _) fun _ h => by cases h
  | attestObjectAccess => exact hasks (asks_attestObjectAccess order _) fun _ h => by cases h

/-- A handler that only asks leaves it as it was. -/
lemma storeOf_asked (hroute : wire.route r.path = some route) {order : List Principal}
    (hasks : Asks (storeOf wire log)
      (route.handler order (storeOf wire log) (some (decoded r)))) (outcome : Outcome) :
    storeOf wire (log ++ [⟨r, outcome⟩]) = storeOf wire log := by
  rw [storeOf_routed hroute order]
  cases hserved : route.handler order (storeOf wire log) (some (decoded r)) with
  | none => rfl
  | some left => exact hasks left hserved

/-- **The last exchange** of a log, on a route. -/
lemma Backed.last (h : Backed wire (log ++ [⟨r, outcome⟩]))
    (hroute : wire.route r.path = some route) :
    Backed wire log ∧ ∃ order, order.Perm (storeOf wire log).stored ∧
      outcome = wire.outcome (route.handler order (storeOf wire log) (some (decoded r))) := by
  generalize hall : log ++ [⟨r, outcome⟩] = all at h
  cases h with
  | start => simp at hall
  | @routed log' order r' route' h horder hroute' =>
      obtain ⟨rfl, hlast⟩ := List.append_inj' hall rfl
      cases List.singleton_inj.mp hlast
      cases hroute.symm.trans hroute'
      exact ⟨h, order, horder, rfl⟩
  | @elsewhere log' e h hroute' =>
      obtain ⟨rfl, hlast⟩ := List.append_inj' hall rfl
      cases List.singleton_inj.mp hlast
      rw [hroute] at hroute'
      cases hroute'

lemma Backed.front {e : Exchange} (h : Backed wire (log ++ [e])) : Backed wire log := by
  generalize hall : log ++ [e] = all at h
  cases h with
  | start => simp at hall
  | @routed log' order r' route' h horder hroute' =>
      obtain ⟨rfl, -⟩ := List.append_inj' hall rfl
      exact h
  | @elsewhere log' e h hroute' =>
      obtain ⟨rfl, -⟩ := List.append_inj' hall rfl
      exact h

lemma exact_storeOf wire (log : List Exchange) :
    Exact (history (callsOf wire log)).2 (storeOf wire log) := exact_history _

end

end MetadataStub

end Libport
