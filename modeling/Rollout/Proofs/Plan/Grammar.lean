import Rollout.Plan.Reading
import Rollout.Proofs.SortedMap

/-!
# The grammar of steps

`Step.Writes j step` says that the value `j` writes the step: one rule for each kind of step, and
for each rule the members of the object that it asks for.  Its companions say the same of a list of
steps, of a nested list, of the second list of a choice, which may be missing, and of branches.

What the reader accepts was written by these rules (`Step.writes_of_ofJson`); with every question
about accepted values turned into a question about rules, nothing behind here opens the reader.
-/

namespace Rollout

/-- A result that two readings in a row gave. -/
theorem ok_of_bind {ε α β : Type} {x : Except ε α} {f : α → Except ε β} {b : β}
    (h : x >>= f = .ok b) : ∃ a, x = .ok a ∧ f a = .ok b := by
  cases x with
  | error e => cases h
  | ok a => exact ⟨a, rfl, h⟩

theorem ok_bind {ε α β : Type} (a : α) (f : α → Except ε β) : (Except.ok a >>= f) = f a := rfl

namespace Step

/-! ## Rules -/

/-- The type that an object states, if it states one that is a string. -/
def statedType (members : List (String × Json)) : Option String :=
  (members.lookup "Type").bind Json.text?

theorem lookup_of_statedType {members : List (String × Json)} {type : String}
    (h : statedType members = some type) : members.lookup "Type" = some (.string type) := by
  obtain ⟨j, hlookup, htext⟩ := Option.bind_eq_some_iff.mp h
  rw [hlookup]
  cases j with
  | string s => rw [Option.some.inj htext]
  | _ => cases htext

/-- The members that the objects of all steps have in common: a name and no transition. -/
structure Heading (name : String) (members : List (String × Json)) : Prop where
  name : members.lookup "Name" = some (.string name)
  noNext : members.lookup "Next" = none
  noEnd : members.lookup "End" = none

mutual

/-- The value writes the step. -/
inductive Writes : Json → Step → Prop
  | task {name : String} {members : List (String × Json)} (heading : Heading name members)
      (notChoice : statedType members ≠ some "Choice")
      (notParallel : statedType members ≠ some "Parallel") :
      Writes (.object members) (.task name (without ["Name"] members))
  | choice {name : String} {members condition : List (String × Json)} {nested : Json}
      {whenTrue : List Step} {whenFalse : Option (List Step)} (heading : Heading name members)
      (type : statedType members = some "Choice") (keys : ∀ m ∈ members, m.1 ∈ choiceKeys)
      (conditionAt : members.lookup "Condition" = some (.object condition))
      (trueAt : members.lookup "IsTrue" = some nested) (trueWritten : WritesNested nested whenTrue)
      (falseWritten : WritesElse (members.lookup "IsFalse") whenFalse) :
      Writes (.object members) (.choice name condition whenTrue whenFalse)
  | parallel {name : String} {members : List (String × Json)} {items : List Json}
      {branches : List (List Step)} (heading : Heading name members)
      (type : statedType members = some "Parallel")
      (branchesAt : members.lookup "Branches" = some (.array items)) (nonempty : items ≠ [])
      (branchesWritten : WritesBranches items branches) :
      Writes (.object members)
        (.parallel name branches (without ["Name", "Type", "Branches"] members))

/-- The items write the steps, one by one. -/
inductive WritesItems : List Json → List Step → Prop
  | nil : WritesItems [] []
  | cons {item : Json} {rest : List Json} {step : Step} {steps : List Step}
      (head : Writes item step) (tail : WritesItems rest steps) :
      WritesItems (item :: rest) (step :: steps)

/-- The value is a list that writes the steps, of which there is one at least. -/
inductive WritesNested : Json → List Step → Prop
  | intro {items : List Json} {steps : List Step} (nonempty : items ≠ [])
      (written : WritesItems items steps) : WritesNested (.array items) steps

/-- What may stand at the second list of a choice writes it. -/
inductive WritesElse : Option Json → Option (List Step) → Prop
  | missing : WritesElse none none
  | given {nested : Json} {steps : List Step} (written : WritesNested nested steps) :
      WritesElse (some nested) (some steps)

/-- The items are nested lists that write the branches, one by one. -/
inductive WritesBranches : List Json → List (List Step) → Prop
  | nil : WritesBranches [] []
  | cons {item : Json} {rest : List Json} {branch : List Step} {branches : List (List Step)}
      (head : WritesNested item branch) (tail : WritesBranches rest branches) :
      WritesBranches (item :: rest) (branch :: branches)

end

/-! ## The parts of a step object -/

theorem heading_of_nameOf {location name : String} {members : List (String × Json)}
    (hname : nameOf location members = .ok name)
    (hfree : ¬ ((members.lookup "Next").isSome || (members.lookup "End").isSome) = true) :
    Heading name members := by
  simp only [Bool.or_eq_true, not_or, Option.not_isSome_iff_eq_none] at hfree
  refine ⟨?_, hfree.1, hfree.2⟩
  unfold nameOf at hname
  split at hname
  · cases hname
  · next hlookup =>
    cases hname
    exact hlookup
  · cases hname

theorem conditionOf_ok {name : String} {members condition : List (String × Json)}
    (h : conditionOf name members = .ok condition) :
    (∀ m ∈ members, m.1 ∈ choiceKeys) ∧ members.lookup "Condition" = some (.object condition) := by
  unfold conditionOf at h
  split at h
  · cases h
  next hfind =>
  split at h
  · cases h
  · next hlookup =>
    cases h
    refine ⟨fun m hm => ?_, hlookup⟩
    simpa using List.find?_eq_none.mp hfind m hm
  · cases h

/-- The nested list at a field is read from what a lookup finds there. -/
theorem listAt_eq (step : String) (field : StepField) (members : List (String × Json)) :
    listAt step field members = (members.lookup field.key).map (ofNested step field) := by
  have hwalk : listAt step field members =
      (members.lookup field.key).elim none fun j => some (ofNested step field j) :=
    Entries.walk_eq_elim_lookup rfl (fun _ _ _ => rfl) members
  rw [hwalk]
  cases members.lookup field.key <;> rfl

theorem branchesAt_eq (step : String) (members : List (String × Json)) :
    branchesAt step members = (members.lookup "Branches").map (ofBranchList step) := by
  have hwalk : branchesAt step members =
      (members.lookup "Branches").elim none fun j => some (ofBranchList step j) :=
    Entries.walk_eq_elim_lookup rfl (fun _ _ _ => rfl) members
  rw [hwalk]
  cases members.lookup "Branches" <;> rfl

/-! ## Accepted values -/

/- By recursion on the value.  The reader takes the members of an object by their keys, so the
recursion passes through all members (`writes_of_members`), and a lookup picks one of them. -/

mutual

/-- A value that the reader accepts writes the step that it gives. -/
theorem writes_of_ofJson : ∀ {j : Json} {location : String} {step : Step},
    ofJson location j = .ok step → Writes j step
  | .object members, location, step, h => by
      rw [ofJson] at h
      obtain ⟨name, hname, h⟩ := ok_of_bind h
      dsimp only at h
      split at h
      · cases h
      next hfree =>
      have heading := heading_of_nameOf hname hfree
      split at h
      · next htype =>
        obtain ⟨condition, hcondition, h⟩ := ok_of_bind h
        obtain ⟨hkeys, hconditionAt⟩ := conditionOf_ok hcondition
        split at h
        · cases h
        next readTrue htrue =>
        rw [listAt_eq] at htrue
        obtain ⟨nested, htrueAt, rfl⟩ := Option.map_eq_some_iff.mp htrue
        obtain ⟨whenTrue, hwhenTrue, h⟩ := ok_of_bind h
        have htrueWritten :=
          (writes_of_members members _ (Entries.mem_of_lookup htrueAt)).1 hwhenTrue
        rw [listAt_eq] at h
        split at h
        · next hfalse =>
          cases h
          have hfalseAt := Option.map_eq_none_iff.mp hfalse
          exact .choice heading htype hkeys hconditionAt htrueAt htrueWritten
            (hfalseAt.symm ▸ .missing)
        · next readFalse hfalse =>
          obtain ⟨other, hfalseAt, rfl⟩ := Option.map_eq_some_iff.mp hfalse
          obtain ⟨whenFalse, hwhenFalse, h⟩ := ok_of_bind h
          have hfalseWritten :=
            (writes_of_members members _ (Entries.mem_of_lookup hfalseAt)).1 hwhenFalse
          cases h
          exact .choice heading htype hkeys hconditionAt htrueAt htrueWritten
            (hfalseAt.symm ▸ .given hfalseWritten)
      · next htype =>
        rw [branchesAt_eq] at h
        split at h
        · cases h
        next readBranches hbranches =>
        obtain ⟨nested, hbranchesAt, rfl⟩ := Option.map_eq_some_iff.mp hbranches
        obtain ⟨branches, hread, h⟩ := ok_of_bind h
        cases h
        obtain ⟨items, rfl, hne, hwritten⟩ :=
          (writes_of_members members _ (Entries.mem_of_lookup hbranchesAt)).2 hread
        exact .parallel heading htype hbranchesAt hne hwritten
      · next hchoice hparallel =>
        cases h
        exact .task heading hchoice hparallel
  | .null, _, _, h => nomatch h
  | .bool _, _, _, h => nomatch h
  | .number _, _, _, h => nomatch h
  | .string _, _, _, h => nomatch h
  | .array _, _, _, h => nomatch h

theorem writes_of_ofItems : ∀ {items : List Json} {location : String} {steps : List Step},
    ofItems location items = .ok steps → WritesItems items steps
  | [], _, _, h => by cases h; exact .nil
  | item :: rest, location, steps, h => by
      rw [ofItems] at h
      obtain ⟨step, hstep, h⟩ := ok_of_bind h
      obtain ⟨more, hmore, h⟩ := ok_of_bind h
      cases h
      exact .cons (writes_of_ofJson hstep) (writes_of_ofItems hmore)

theorem writes_of_ofNested : ∀ {j : Json} {step : String} {field : StepField} {steps : List Step},
    ofNested step field j = .ok steps → WritesNested j steps
  | .array [], _, _, _, h => nomatch h
  | .array (first :: rest), _, _, _, h => .intro (List.cons_ne_nil first rest) (writes_of_ofItems h)
  | .null, _, _, _, h => nomatch h
  | .bool _, _, _, _, h => nomatch h
  | .number _, _, _, _, h => nomatch h
  | .string _, _, _, _, h => nomatch h
  | .object _, _, _, _, h => nomatch h

theorem writes_of_ofBranches : ∀ {items : List Json} {step : String} {branches : List (List Step)},
    ofBranches step items = .ok branches → WritesBranches items branches
  | [], _, _, h => by cases h; exact .nil
  | item :: rest, step, branches, h => by
      rw [ofBranches] at h
      obtain ⟨branch, hbranch, h⟩ := ok_of_bind h
      obtain ⟨more, hmore, h⟩ := ok_of_bind h
      cases h
      exact .cons (writes_of_ofNested hbranch) (writes_of_ofBranches hmore)

theorem writes_of_ofBranchList : ∀ {j : Json} {step : String} {branches : List (List Step)},
    ofBranchList step j = .ok branches →
    ∃ items, j = .array items ∧ items ≠ [] ∧ WritesBranches items branches
  | .array [], _, _, h => nomatch h
  | .array (first :: rest), _, _, h =>
      ⟨first :: rest, rfl, List.cons_ne_nil first rest, writes_of_ofBranches h⟩
  | .null, _, _, h => nomatch h
  | .bool _, _, _, h => nomatch h
  | .number _, _, _, h => nomatch h
  | .string _, _, _, h => nomatch h
  | .object _, _, _, h => nomatch h

/-- What the members of an object hold is written by the rules wherever it is accepted. -/
theorem writes_of_members : ∀ (members : List (String × Json)), ∀ m ∈ members,
    (∀ {step field steps}, ofNested step field m.2 = .ok steps → WritesNested m.2 steps) ∧
      ∀ {step branches}, ofBranchList step m.2 = .ok branches →
        ∃ items, m.2 = .array items ∧ items ≠ [] ∧ WritesBranches items branches
  | [], _, hm => absurd hm List.not_mem_nil
  | (_, j) :: rest, m, hm => by
      rcases List.mem_cons.mp hm with rfl | hm
      · exact ⟨writes_of_ofNested, writes_of_ofBranchList⟩
      · exact writes_of_members rest m hm

end

end Step

namespace Plan

/-- An accepted value is the list of items that write the steps of the plan. -/
theorem writes_of_ofJson {v : Json} {plan : Plan} (h : ofJson v = .ok plan) :
    ∃ items, v = .array items ∧ items ≠ [] ∧ Step.WritesItems items plan.steps := by
  cases v with
  | array items =>
    obtain ⟨steps, hsteps, h⟩ := ok_of_bind h
    have hwritten := Step.writes_of_ofItems hsteps
    cases hwritten with
    | nil => cases h
    | cons head tail =>
      cases h
      exact ⟨_, rfl, List.cons_ne_nil _ _, .cons head tail⟩
  | _ => cases h

end Plan

end Rollout
