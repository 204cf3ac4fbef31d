import Libport.Server.Robustness

/-!
# Where everything is logged

The platform gets through every text without a directive.  A directive can come from the path of a
free or a guard call, and from what the service, or the way to it, puts into an error.

* `Outcome.Plain`: nothing that an error would quote of the outcome has a directive in it.
* `PlainEnd` and its lemmas: what is logged of an end has none, through the four endings and the
  creation of an instance.
* **`formats_logs`**: with such a service, and a path without a directive, a command is answered as
  far as logging goes.
-/

namespace Libport

def RequestError.what : RequestError → String
  | runtime what | json what | http what => what

def BodyError.what : BodyError → String
  | notJson what | badContentType what => what

/-- Nothing that an error would quote of the outcome has a directive in it. -/
def Outcome.Plain : Outcome → Prop
  | failed e => IsPlain e.what
  | replied res =>
      match res.body with
      | .ok v => ∀ message, v.stringField "message" = .ok message → IsPlain message
      | .error e => IsPlain e.what

/-- What is logged of the end has no directive. -/
def PlainEnd {α : Type} (x : Except Exc α) : Prop := ∀ text ∈ errmsgs x, IsPlain text

section PlainEnds

variable {α : Type} {x : Except Exc α} {o : Outcome}

lemma plainEnd_ok (a : α) : PlainEnd (.ok a : Except Exc α) :=
  fun _ htext => absurd htext List.not_mem_nil

lemma PlainEnd.map {β : Type} (hx : PlainEnd x) (f : α → β) : PlainEnd (x.map f) := by
  rwa [PlainEnd, errmsgs_map]

lemma PlainEnd.orOnRuntime (hx : PlainEnd x) (fallback : α) :
    PlainEnd (orOnRuntime fallback x) := by
  cases x with
  | ok a => exact hx
  | error e =>
      cases e with
      | runtimeError what => exact plainEnd_ok fallback
      | _ => exact hx

/-- A caught exception is logged behind the name of its class. -/
lemma plainEnd_error {e : Exc} {front what : String} (he : e.errmsg = some (front ++ what))
    (hfront : IsPlain front) (hwhat : IsPlain what) : PlainEnd (.error e : Except Exc α) := by
  intro text htext
  rw [errmsgs, he] at htext
  obtain rfl := List.mem_singleton.mp htext
  exact (isPlain_append front what).mpr ⟨hfront, hwhat⟩

lemma plainEnd_runtimeError {what : String} (hwhat : IsPlain what) :
    PlainEnd (.error (.runtimeError what) : Except Exc α) := plainEnd_error rfl (by decide) hwhat

lemma plainEnd_jsonException {what : String} (hwhat : IsPlain what) :
    PlainEnd (.error (.jsonException what) : Except Exc α) := plainEnd_error rfl (by decide) hwhat

lemma plainEnd_httpException {what : String} (hwhat : IsPlain what) :
    PlainEnd (.error (.httpException what) : Except Exc α) := plainEnd_error rfl (by decide) hwhat

lemma plainEnd_requestError {e : RequestError} (he : IsPlain e.what) :
    PlainEnd (.error e.toExc : Except Exc α) := by
  cases e with
  | runtime what => exact plainEnd_runtimeError he
  | json what => exact plainEnd_jsonException he
  | http what => exact plainEnd_httpException he

lemma plainEnd_bodyError {e : BodyError} (he : IsPlain e.what) :
    PlainEnd (.error e.toExc : Except Exc α) := by
  cases e with
  | notJson what => exact plainEnd_jsonException he
  | badContentType what => exact plainEnd_httpException he

lemma plainEnd_get (ho : o.Plain) : PlainEnd o.get := by
  cases o with
  | replied res => exact plainEnd_ok res
  | failed e => exact plainEnd_requestError ho

lemma plainEnd_jsonOutcome {msg : String} (hmsg : IsPlain msg) (ho : o.Plain) :
    PlainEnd (jsonOutcome msg o) := by
  cases o with
  | failed e => exact plainEnd_requestError ho
  | replied res =>
      rw [jsonOutcome]
      split_ifs with hs
      · rw [Outcome.Plain] at ho
        cases hb : res.body with
        | ok v => exact plainEnd_ok v
        | error e =>
            rw [hb] at ho
            exact plainEnd_bodyError ho
      · exact plainEnd_runtimeError (isPlain_statusText hmsg res)

lemma plainEnd_stringField (v : Json) (key : String) : PlainEnd (v.stringField key) := by
  cases v with
  | object fields =>
      rw [Json.stringField]
      split
      · exact plainEnd_ok _
      · exact plainEnd_jsonException (by decide)
  | _ => exact plainEnd_jsonException (by decide)

lemma plainEnd_messageOutcome {msg : String} (hmsg : IsPlain msg) (ho : o.Plain) :
    PlainEnd (messageOutcome msg o) := by
  have hjson := plainEnd_jsonOutcome hmsg ho
  rw [messageOutcome]
  cases hj : jsonOutcome msg o with
  | ok v => exact plainEnd_stringField v "message"
  | error e =>
      rw [hj] at hjson
      exact hjson

/-- The errors of a creation quote the message of the reply. -/
lemma plainEnd_keyOutcome (ho : o.Plain) : PlainEnd (keyOutcome o) := by
  have hjson : PlainEnd (jsonOutcome "creating instance new" o) :=
    plainEnd_jsonOutcome (by decide) ho
  rw [keyOutcome]
  cases hj : jsonOutcome "creating instance new" o with
  | error e =>
      rw [hj] at hjson
      exact hjson
  | ok v =>
      obtain ⟨res, rfl, -, hb⟩ := jsonOutcome_eq_ok.mp hj
      rw [Outcome.Plain, hb] at ho
      have hfield := plainEnd_stringField v "message"
      simp only [extractSafeIdentity, bind, Except.bind]
      cases hv : v.stringField "message" with
      | error e =>
          rw [hv] at hfield
          exact hfield
      | ok wrap =>
          have hquoted : ∀ front, IsPlain front → IsPlain (front ++ Text.cString wrap) :=
            fun front hfront =>
              (isPlain_append _ _).mpr ⟨hfront, isPlain_cString (ho wrap hv)⟩
          simp only
          split
          · exact plainEnd_runtimeError (hquoted _ (by decide))
          · split_ifs
            · exact plainEnd_runtimeError (hquoted _ (by decide))
            · exact plainEnd_ok _

/-- An ending under a message without a directive. -/
lemma Ending.Literal.plainEnd {ending : Ending} (h : ending.Literal) (ho : o.Plain) :
    PlainEnd (ending.apply o) := by
  cases ending with
  | sink => exact (plainEnd_get ho).map _
  | json msg => exact (plainEnd_jsonOutcome h ho).map _
  | verdict msg judge => exact (((plainEnd_messageOutcome h ho).map judge).orOnRuntime false).map _
  | attest msg => exact ((plainEnd_messageOutcome h ho).orOnRuntime "").map _

end PlainEnds

namespace Manager

/-- **With a service whose words have no directive**, and a path without one, everything is
logged. -/
lemma formats_logs {env : Env} {cmd : Command} (hpath : PathPlain cmd)
    (hservice : ∀ n, (env.replies n).Plain) (d : Daemon) :
    ∀ text ∈ formats env cmd d, env.platform.logs text = true := by
  intro text htext
  rw [formats] at htext
  cases hp : planOf env cmd with
  | some pl =>
      rw [hp] at htext
      cases pl with
      | crash c => cases htext
      | reply r => cases htext
      | ask req ending =>
          have hliteral := planOf_literal hp hpath
          rcases List.mem_append.mp htext with htext | htext
          · exact hliteral.logs _ _ text htext
          · exact env.platform.logs_plain _ (hliteral.plainEnd (hservice _) text htext)
  | none =>
      rw [hp] at htext
      refine env.platform.logs_plain _ ?_
      simp only at htext
      split at htext
      · cases hkey : keyOutcome (env.replies d.exchanges.length) with
        | error e =>
            have hplain := plainEnd_keyOutcome (hservice d.exchanges.length)
            rw [hkey] at hplain htext
            exact hplain text htext
        | ok key =>
            rw [hkey] at htext
            exact plainEnd_get (hservice _) text htext
      · split at htext
        · split_ifs at htext
          · exact plainEnd_jsonOutcome (by decide) (hservice _) text htext
          · cases htext
        · cases htext
      · cases htext

end Manager

end Libport
