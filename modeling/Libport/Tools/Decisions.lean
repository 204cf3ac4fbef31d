import Libport.Tools.Client

/-!
# What the client is granted (`tests/test_metadata.cc`)

The test posts principals, images and object policies and asserts who has a property and who may
access an object.  Two facts about all programs of that kind follow from the policy.

* `Policy.Lawful`: what holds of the policy in every run.
* `Policy.Apart`: no two principals on an ip share a port.
* **`holder_decides`**: then a check is granted exactly when the principal that holds the port
  passes it.
* **`bare_object_denied`**: no run grants an access to an object without a colon in its name, as
  the name is posted with one in front.  The test asserts such an access.
-/

namespace Libport

namespace MetadataStub

/-! ## What holds in every run -/

/-- The ranges of ports are not empty, and the objects have a colon in their names. -/
structure Policy.Lawful (policy : Policy) : Prop where
  ranges : ∀ p, policy.Registered p → p.portMin ≤ p.portMax
  qualified : ∀ object requirement, policy.requirement object = some requirement →
    ':' ∈ object.toList

lemma lawful_initial : Policy.initial.Lawful where
  ranges := by
    rintro p ⟨name, hp⟩
    cases hp
  qualified := by
    intro object requirement h
    cases h

lemma colon_mem_actualId (speaker object : String) :
    ':' ∈ (MetadataServiceClient.actualId speaker object).toList := by
  unfold MetadataServiceClient.actualId
  cases hfind : Text.find object ":" with
  | none => simp
  | some i =>
      by_contra hcolon
      rw [MetadataServiceClient.find_colon_eq_none.mpr hcolon] at hfind
      cases hfind

section
variable {policy : Policy} {ip : String} {port : ℤ}

/-- Who is registered after a promise about a name. -/
lemma registered_update {name : String} {p : Principal} {value : Option Principal}
    (h : ({ policy with principal := Function.update policy.principal name value } :
      Policy).Registered p) : value = some p ∨ policy.Registered p := by
  obtain ⟨other, hother⟩ := h
  simp only at hother
  by_cases heq : other = name
  · rw [heq, Function.update_self] at hother
    exact Or.inl hother
  · rw [Function.update_of_ne heq] at hother
    exact Or.inr ⟨other, hother⟩

lemma Policy.Lawful.after (h : policy.Lawful) (op : Operation) : (policy.after op).Lawful := by
  cases op with
  | postNewPrincipal speaker name ip portMin portMax image configs =>
      rw [Policy.after]
      split_ifs with htakes
      · refine ⟨fun p hp => ?_, h.qualified⟩
        rcases registered_update hp with heq | hp
        · cases heq
          have haccept := htakes.2
          rw [Update.acceptable, decide_eq_true_iff] at haccept
          exact haccept.2.2.1
        · exact h.ranges p hp
      · exact h
  | postNewImage speaker image sourceUrl sourceRev miscConf =>
      rw [Policy.after]
      split_ifs
      · exact ⟨h.ranges, h.qualified⟩
      · exact h
  | endorseImage speaker image endorsement config => exact ⟨h.ranges, h.qualified⟩
  | endorseAttester speaker image config =>
      rw [Policy.after]
      split_ifs
      · exact ⟨h.ranges, h.qualified⟩
      · exact h
  | postObjectAcl speaker object requirement =>
      refine ⟨h.ranges, fun other wanted hwanted => ?_⟩
      by_cases hother : other = MetadataServiceClient.actualId speaker object
      · rw [hother]
        exact colon_mem_actualId speaker object
      · refine h.qualified other wanted (Eq.trans ?_ hwanted)
        exact (Function.update_of_ne hother _ _).symm
  | hasProperty speaker ip port property bearer => exact h
  | canAccess speaker ip port object bearer => exact h
  | removePrincipal speaker name ip portMin portMax image configs =>
      refine ⟨fun p hp => ?_, h.qualified⟩
      rcases registered_update hp with heq | hp
      · cases heq
      · exact h.ranges p hp

lemma lawful_foldl (ops : List Operation) : (ops.foldl Policy.after .initial).Lawful := by
  induction ops using List.reverseRecOn with
  | nil => exact lawful_initial
  | append_singleton ops op ih =>
      rw [List.foldl_append]
      exact ih.after op

/-! ## Principals that are apart -/

/-- No two principals on an ip share a port. -/
def Policy.Apart (policy : Policy) : Prop :=
  ∀ p q, policy.Registered p → policy.Registered q → p.ip = q.ip →
    p = q ∨ Disjoint p.range q.range

/-- Then an address leads to the principal that holds the port and to no other. -/
lemma Policy.Reached.holds_of_apart (hlawful : policy.Lawful) (hapart : policy.Apart)
    {p : Principal} (h : policy.Reached ip port p) : policy.Registered p ∧ p.Holds ip port := by
  induction h with
  | holds hp hholds => exact ⟨hp, hholds⟩
  | @inside p q h hq hip hmin ih =>
      obtain ⟨hp, hholds⟩ := ih
      have hself : q.portMin ∈ q.range := ⟨le_refl _, hlawful.ranges q hq⟩
      rcases hapart p q hp hq (hholds.1.trans hip.symm) with rfl | hdisjoint
      · exact ⟨hp, hholds⟩
      · exact absurd hself (Set.disjoint_left.mp hdisjoint hmin)

lemma Policy.Resolves.exists_iff (hlawful : policy.Lawful) (hapart : policy.Apart)
    {found : Option Principal} (h : policy.Resolves ip port found) (P : Principal → Prop) :
    (∃ p ∈ found, P p) ↔ isIP ip = true ∧ ∃ p, policy.Registered p ∧ p.Holds ip port ∧ P p := by
  cases found with
  | none =>
      refine iff_of_false (by simp) ?_
      rintro ⟨hip, p, hp, hholds, -⟩
      rcases h with hnot | hnone
      · rw [hip] at hnot
        cases hnot
      · exact hnone p hp hholds
  | some p =>
      obtain ⟨hip, hreached⟩ := h
      obtain ⟨hp, hholds⟩ := hreached.holds_of_apart hlawful hapart
      constructor
      · rintro ⟨q, hq, hP⟩
        cases hq
        exact ⟨hip, p, hp, hholds, hP⟩
      · rintro ⟨-, q, hq, hholds', hP⟩
        rcases hapart p q hp hq (hholds.1.trans hholds'.1.symm) with rfl | hdisjoint
        · exact ⟨p, rfl, hP⟩
        · exact absurd hholds'.2 (Set.disjoint_left.mp hdisjoint hholds.2)

end

/-! ## The two checks -/

/-- The address that an operation asks about. -/
def Operation.address : Operation → Option (String × UInt32)
  | hasProperty _ ip port _ _ | canAccess _ ip port _ _ => some (ip, port)
  | _ => none

/-- The principal passes the check. -/
def Policy.Passes (policy : Policy) (p : Principal) : Operation → Prop
  | .hasProperty _ _ _ property _ => policy.Has p.imageId property
  | .canAccess _ _ _ object _ => ∃ requirement,
      policy.requirement object = some requirement ∧ policy.Has p.imageId requirement
  | _ => False

section
variable {wire : Wire} {platform : Platform} {replies : ℕ → Outcome}

lemma policyOf_runAll (hwire : wire.Reads) {ops : List Operation}
    (h : Backed wire (runAll platform replies ops).2) :
    policyOf wire (runAll platform replies ops).2 = ops.foldl Policy.after .initial := by
  induction ops using List.reverseRecOn with
  | nil => rfl
  | append_singleton ops op ih =>
      rw [runAll_concat] at h ⊢
      obtain ⟨hfront, -, hpolicy⟩ := refines_step hwire op _ h
      rw [hpolicy, ih hfront, List.foldl_append]
      rfl

lemma answers_runAll (hwire : wire.Reads) {ops : List Operation} {op : Operation}
    (h : Backed wire (runAll platform replies (ops ++ [op])).2) :
    (ops.foldl Policy.after .initial).Answers wire op
      (op.run platform replies (runAll platform replies ops).2).1 := by
  rw [runAll_concat] at h
  obtain ⟨hfront, hanswers, -⟩ := refines_step hwire op _ h
  rw [← policyOf_runAll hwire hfront]
  exact hanswers

/-- **Who decides a check**, after any program of the client: where no two principals on an ip
share a port, it is granted exactly when the ip is one and the principal that holds the port passes
it. -/
theorem holder_decides (hwire : wire.Reads) (ops : List Operation) (op : Operation) (ip : String)
    (port : UInt32) (haddress : op.address = some (ip, port))
    (hapart : (ops.foldl Policy.after .initial).Apart)
    (h : Backed wire (runAll platform replies (ops ++ [op])).2) :
    ∃ granted,
      (op.run platform replies (runAll platform replies ops).2).1 = .ok (.verdict granted) ∧
      (granted = true ↔ isIP ip = true ∧ ∃ p, (ops.foldl Policy.after .initial).Registered p ∧
        p.Holds ip (asInt port) ∧ (ops.foldl Policy.after .initial).Passes p op) := by
  have hanswers := answers_runAll hwire h
  have hlawful := lawful_foldl ops
  cases op with
  | hasProperty speaker ip' port' property bearer =>
      cases haddress
      obtain ⟨found, granted, hresolves, hresult, hgranted⟩ := hanswers
      exact ⟨granted, hresult, hgranted.trans (hresolves.exists_iff hlawful hapart _)⟩
  | canAccess speaker ip' port' object bearer =>
      cases haddress
      obtain ⟨found, granted, hresolves, hresult, hgranted⟩ := hanswers
      exact ⟨granted, hresult, hgranted.trans (hresolves.exists_iff hlawful hapart _)⟩
  | _ => cases haddress

/-- **An object without a colon in its name** is accessed by nobody, after any program of the
client. -/
theorem bare_object_denied (hwire : wire.Reads) (ops : List Operation) (speaker ip : String)
    (port : UInt32) (object bearer : String) (hbare : ':' ∉ object.toList)
    (h : Backed wire
      (runAll platform replies (ops ++ [.canAccess speaker ip port object bearer])).2) :
    (Operation.run platform replies (.canAccess speaker ip port object bearer)
      (runAll platform replies ops).2).1 = .ok (.verdict false) := by
  obtain ⟨found, granted, -, hresult, hgranted⟩ := answers_runAll hwire h
  have hdenied : granted = false := by
    refine Bool.eq_false_iff.mpr fun htrue => ?_
    obtain ⟨p, -, requirement, hrequirement, -⟩ := hgranted.mp htrue
    exact hbare ((lawful_foldl ops).qualified object requirement hrequirement)
  rw [hresult, hdenied]

end

/-! ## The program of the test -/

lemma policy_happy : happyProgram.foldl Policy.after .initial = happyStore.policy := by
  rw [← policyOf_runAll reads_testWire (backed_happy approveAccess), runAll_happy, policyOf,
    storeOf_happyLog]

/-- Its one principal is apart from all others. -/
lemma apart_happy : (happyProgram.foldl Policy.after .initial).Apart := by
  intro p q hp hq _
  rw [policy_happy, registered_policy] at hp hq
  exact Or.inl ((List.mem_singleton.mp hp).trans (List.mem_singleton.mp hq).symm)

/-- The check of an access, behind the program. -/
lemma backed_access {last : Response} {object : String}
    (hlast : attestObjectAccess happyStore.stored happyStore
      (some ⟨attestIdentity, ["192.168.0.1:1005", object]⟩) = some (last, happyStore)) :
    Backed testWire (runAll .strict (happyReplies last)
      (happyProgram ++ [.canAccess "iaas" "192.168.0.1" 1005 object ""])).2 := by
  have hserved : Backed testWire (happyLog last ++ [⟨formatRequest "/appAccessesObject"
      attestIdentity ["192.168.0.1:1005", object] "",
      .replied ⟨last.status, readMessage last.body⟩⟩]) :=
    (runAll_happy last ▸ backed_happy last).served (storeOf_happyLog last) rfl
      (congrArg testWire.outcome hlast).symm
  have haddress : formatNetaddr "192.168.0.1" (asInt 1005) = "192.168.0.1:1005" := by decide
  rw [runAll_concat, Operation.run, returning_run, MetadataServiceClient.canAccess,
    verdictPost_run .strict _ _ (Platform.strict.parsesUri_plain _ rfl),
    runAll_happy, haddress]
  exact hserved

/-- The principal of the program may access the object under its qualified name. -/
theorem holder_decides_happy :
    (Operation.run .strict (happyReplies approveAccess)
      (.canAccess "iaas" "192.168.0.1" 1005 "alice:object1" "")
      (runAll .strict (happyReplies approveAccess) happyProgram).2).1 = .ok (.verdict true) := by
  obtain ⟨granted, hresult, hgranted⟩ := holder_decides reads_testWire happyProgram
    (.canAccess "iaas" "192.168.0.1" 1005 "alice:object1" "") "192.168.0.1" 1005 rfl apart_happy
    (backed_access rfl)
  rw [hresult, hgranted.mpr ⟨by decide, ?_⟩]
  rw [policy_happy]
  refine ⟨postedPrincipal "image1" "192.168.0.1:1000-2000" "no_config", ⟨"p1", rfl⟩, ?_, "happy",
    rfl, _, rfl, rfl⟩
  exact isFirst_iff.mp rfl

/-- Not so under the name that it was posted with. -/
theorem bare_object_denied_happy :
    (Operation.run .strict (happyReplies ⟨404, r#"{"message": "object not found"}"#⟩)
      (.canAccess "iaas" "192.168.0.1" 1005 "object1" "")
      (runAll .strict (happyReplies ⟨404, r#"{"message": "object not found"}"#⟩)
        happyProgram).2).1 = .ok (.verdict false) :=
  bare_object_denied reads_testWire happyProgram "iaas" "192.168.0.1" 1005 "object1" "" (by decide)
    (backed_access rfl)

end MetadataStub

end Libport
