import Libport.Server.Plan

/-!
# The names that object policies are stored and checked under

`post_object_acl` qualifies an object name without a colon by the speaker.  The two checks ask for
the name they are given.

* `postObjectAcl_run`, `canAccess_run`, `canWorkerAccess_run`: the one request of each.
* **`sameObject_iff`**: the policy posted for an object is the one that the checks ask for exactly
  when the name has a colon.
-/

namespace Libport

namespace MetadataServiceClient

/-- The object id that `post_object_acl` posts. -/
def actualId (speaker objectId : String) : String :=
  match Text.find objectId ":" with
  | none => speaker ++ ":" ++ objectId
  | some _ => objectId

section Requests

variable (platform : Platform) (replies : ℕ → Outcome) (log : List Exchange)
  (speaker ip : String) (port : UInt32) (object bearer : String)

lemma postObjectAcl_run (requirement : String) :
    (postObjectAcl platform replies speaker object requirement log).2
      = log ++ [⟨formatRequest "/postObjectAcl" speaker [actualId speaker object, requirement] "",
          replies log.length⟩] := by
  rw [postObjectAcl,
    sinkPost_run platform replies log (platform.parsesUri_plain _ rfl) _ _ (by decide)]
  rfl

lemma canAccess_run :
    (canAccess platform replies speaker ip port object bearer log).2
      = log ++ [⟨formatRequest "/appAccessesObject" attestIdentity
          [formatNetaddr ip (asInt port), object] bearer, replies log.length⟩] := by
  rw [canAccess, verdictPost_run platform replies log (platform.parsesUri_plain _ rfl)]

lemma canWorkerAccess_run :
    (canWorkerAccess platform replies speaker ip port object bearer log).2
      = log ++ [⟨formatRequest "/workerAccessesObject" attestIdentity
          [formatNetaddr ip (asInt port), object] bearer, replies log.length⟩] := by
  rw [canWorkerAccess, verdictPost_run platform replies log (platform.parsesUri_plain _ rfl)]

end Requests

/-- One object id is posted with the policy and asked for by both checks, on every platform,
whatever was exchanged before and whatever the service answers. -/
def SameObject (speaker object ip : String) (port : UInt32) (requirement bearer : String) : Prop :=
  ∃ id, ∀ (platform : Platform) (replies : ℕ → Outcome) (log : List Exchange),
    (postObjectAcl platform replies speaker object requirement log).2
        = log ++ [⟨formatRequest "/postObjectAcl" speaker [id, requirement] "",
            replies log.length⟩] ∧
      (canAccess platform replies speaker ip port object bearer log).2
        = log ++ [⟨formatRequest "/appAccessesObject" attestIdentity
            [formatNetaddr ip (asInt port), id] bearer, replies log.length⟩] ∧
      (canWorkerAccess platform replies speaker ip port object bearer log).2
        = log ++ [⟨formatRequest "/workerAccessesObject" attestIdentity
            [formatNetaddr ip (asInt port), id] bearer, replies log.length⟩]

lemma find_colon_eq_none {s : String} : Text.find s ":" = none ↔ ':' ∉ s.toList := by
  rw [Text.find_eq_none_iff]
  have hcolon : ":".toList = [':'] := rfl
  rw [hcolon, List.singleton_infix_iff]

/-- A qualified name is longer than the name. -/
lemma qualified_ne (speaker object : String) : speaker ++ ":" ++ object ≠ object := by
  intro h
  have hlen := congrArg String.length h
  simp only [String.length_append] at hlen
  have hcolon : ":".length = 1 := rfl
  omega

lemma actualId_eq_iff (speaker object : String) :
    actualId speaker object = object ↔ ':' ∈ object.toList := by
  unfold actualId
  cases hfind : Text.find object ":" with
  | none =>
      refine iff_of_false (qualified_ne speaker object) ?_
      exact find_colon_eq_none.mp hfind
  | some i =>
      refine iff_of_true rfl ?_
      by_contra hcolon
      rw [find_colon_eq_none.mpr hcolon] at hfind
      cases hfind

/-- The posted id and the one that is asked for, compared. -/
lemma actualId_of_sameObject {speaker object ip : String} {port : UInt32}
    {requirement bearer : String} (h : SameObject speaker object ip port requirement bearer) :
    actualId speaker object = object := by
  obtain ⟨id, h⟩ := h
  obtain ⟨hposted, hchecked, -⟩ := h .strict (fun _ => .failed (.http "")) []
  rw [postObjectAcl_run] at hposted
  rw [canAccess_run] at hchecked
  simp only [formatRequest, List.nil_append, List.cons.injEq, Exchange.mk.injEq,
    Request.mk.injEq, and_true, true_and] at hposted hchecked
  rw [hposted, hchecked]

/-- **When a policy is stored under the name it is checked by.**  For every speaker, object,
address and policy, the posted object id is the one that both checks ask for if and only if the
name of the object has a colon. -/
theorem sameObject_iff (speaker object ip : String) (port : UInt32)
    (requirement bearer : String) :
    SameObject speaker object ip port requirement bearer ↔ ':' ∈ object.toList := by
  rw [← actualId_eq_iff speaker object]
  constructor
  · exact actualId_of_sameObject
  · intro heq
    refine ⟨object, fun platform replies log => ⟨?_, ?_, ?_⟩⟩
    · rw [postObjectAcl_run, heq]
    · rw [canAccess_run]
    · rw [canWorkerAccess_run]

/-- A policy posted for `object1` is stored under `127.0.0.1:100-200:object1`, and the checks ask
for `object1`. -/
theorem sameObject_unqualified :
    actualId "127.0.0.1:100-200" "object1" = "127.0.0.1:100-200:object1" ∧
      ¬ SameObject "127.0.0.1:100-200" "object1" "192.168.0.1" 1005 "happy" "" := by
  have hname : actualId "127.0.0.1:100-200" "object1" = "127.0.0.1:100-200:object1" := by decide
  refine ⟨hname, fun h => ?_⟩
  have heq := actualId_of_sameObject h
  rw [hname] at heq
  exact absurd heq (by decide)

end MetadataServiceClient

end Libport
