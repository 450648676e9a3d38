import Rollout.Proofs.Plan.Grammar

/-!
# What the reader accepts

`Step.Valid` says which values are steps, in terms of the values alone, and `Step.ValidList` which
values are lists of steps.  A value is valid exactly if it writes a step (`Step.valid_iff`), and the
reader gives every step that a value writes (`Step.ofJson_of_writes` and its companions), wherever
the value stands.  With the converse of the grammar the reader and the rules say the same
(`Step.ofJson_ok_iff`).

A list is read from the front, and every item is told the step before it.  So the items in front of
the first one that is no step decide where that item stands, the item decides the fault, and nothing
behind it has a say (`Step.FirstFault`).  `Plan.accepts_grammar` puts both together.
-/

namespace Rollout

namespace Step

/-! ## Valid values -/

mutual

/-- The value is a step. -/
inductive Valid : Json → Prop
  | task {name : String} {members : List (String × Json)} (heading : Heading name members)
      (notChoice : statedType members ≠ some "Choice")
      (notParallel : statedType members ≠ some "Parallel") :
      Valid (.object members)
  | choice {name : String} {members condition : List (String × Json)} {nested : Json}
      (heading : Heading name members) (type : statedType members = some "Choice")
      (keys : ∀ m ∈ members, m.1 ∈ choiceKeys)
      (conditionAt : members.lookup "Condition" = some (.object condition))
      (trueAt : members.lookup "IsTrue" = some nested) (trueValid : ValidList nested)
      (falseValid : ∀ other, members.lookup "IsFalse" = some other → ValidList other) :
      Valid (.object members)
  | parallel {name : String} {members : List (String × Json)} {items : List Json}
      (heading : Heading name members) (type : statedType members = some "Parallel")
      (branchesAt : members.lookup "Branches" = some (.array items)) (nonempty : items ≠ [])
      (branchesValid : ∀ branch ∈ items, ValidList branch) :
      Valid (.object members)

/-- The value is a list of steps, and not an empty one. -/
inductive ValidList : Json → Prop
  | intro {items : List Json} (nonempty : items ≠ []) (valid : ∀ item ∈ items, Valid item) :
      ValidList (.array items)

end

/-! ## Valid values write steps -/

mutual

theorem Writes.valid : ∀ {j : Json} {step : Step}, Writes j step → Valid j
  | _, _, .task heading notChoice notParallel => .task heading notChoice notParallel
  | _, _, .choice heading type keys conditionAt trueAt trueWritten falseWritten =>
      .choice heading type keys conditionAt trueAt trueWritten.valid falseWritten.valid
  | _, _, .parallel heading type branchesAt nonempty branchesWritten =>
      .parallel heading type branchesAt nonempty branchesWritten.valid

theorem WritesItems.valid : ∀ {items : List Json} {steps : List Step}, WritesItems items steps →
    ∀ item ∈ items, Valid item
  | _, _, .nil, _, hitem => absurd hitem List.not_mem_nil
  | _, _, .cons head tail, item, hitem => by
      rcases List.mem_cons.mp hitem with rfl | hitem
      · exact head.valid
      · exact tail.valid item hitem

theorem WritesNested.valid : ∀ {j : Json} {steps : List Step}, WritesNested j steps → ValidList j
  | _, _, .intro nonempty written => .intro nonempty written.valid

theorem WritesElse.valid : ∀ {nested : Option Json} {whenFalse : Option (List Step)},
    WritesElse nested whenFalse → ∀ other, nested = some other → ValidList other
  | _, _, .missing, _, hother => nomatch hother
  | _, _, .given written, _, hother => Option.some.inj hother ▸ written.valid

theorem WritesBranches.valid : ∀ {items : List Json} {branches : List (List Step)},
    WritesBranches items branches → ∀ branch ∈ items, ValidList branch
  | _, _, .nil, _, hbranch => absurd hbranch List.not_mem_nil
  | _, _, .cons head tail, branch, hbranch => by
      rcases List.mem_cons.mp hbranch with rfl | hbranch
      · exact head.valid
      · exact tail.valid branch hbranch

end

theorem exists_writesItems : ∀ {items : List Json}, (∀ item ∈ items, ∃ step, Writes item step) →
    ∃ steps, WritesItems items steps
  | [], _ => ⟨[], .nil⟩
  | _ :: _, h => by
      obtain ⟨⟨step, hstep⟩, hrest⟩ := List.forall_mem_cons.mp h
      obtain ⟨steps, hsteps⟩ := exists_writesItems hrest
      exact ⟨step :: steps, .cons hstep hsteps⟩

theorem exists_writesBranches : ∀ {items : List Json},
    (∀ branch ∈ items, ∃ steps, WritesNested branch steps) →
    ∃ branches, WritesBranches items branches
  | [], _ => ⟨[], .nil⟩
  | _ :: _, h => by
      obtain ⟨⟨steps, hsteps⟩, hrest⟩ := List.forall_mem_cons.mp h
      obtain ⟨branches, hbranches⟩ := exists_writesBranches hrest
      exact ⟨steps :: branches, .cons hsteps hbranches⟩

theorem exists_writesElse {nested : Option Json}
    (h : ∀ other, nested = some other → ∃ steps, WritesNested other steps) :
    ∃ whenFalse, WritesElse nested whenFalse := by
  cases nested with
  | none => exact ⟨none, .missing⟩
  | some other =>
    obtain ⟨steps, hsteps⟩ := h other rfl
    exact ⟨some steps, .given hsteps⟩

mutual

theorem Valid.exists_writes : ∀ {j : Json}, Valid j → ∃ step, Writes j step
  | _, .task heading notChoice notParallel => ⟨_, .task heading notChoice notParallel⟩
  | _, .choice heading type keys conditionAt trueAt trueValid falseValid => by
      obtain ⟨whenTrue, htrue⟩ := trueValid.exists_writes
      obtain ⟨whenFalse, hfalse⟩ :=
        exists_writesElse fun other hother => (falseValid other hother).exists_writes
      exact ⟨_, .choice heading type keys conditionAt trueAt htrue hfalse⟩
  | _, .parallel heading type branchesAt nonempty branchesValid => by
      obtain ⟨branches, hbranches⟩ :=
        exists_writesBranches fun branch hbranch => (branchesValid branch hbranch).exists_writes
      exact ⟨_, .parallel heading type branchesAt nonempty hbranches⟩

theorem ValidList.exists_writes : ∀ {j : Json}, ValidList j → ∃ steps, WritesNested j steps
  | _, .intro nonempty valid => by
      obtain ⟨steps, hsteps⟩ :=
        exists_writesItems fun item hitem => (valid item hitem).exists_writes
      exact ⟨steps, .intro nonempty hsteps⟩

end

/-- A value is valid exactly if it writes a step. -/
theorem valid_iff {j : Json} : Valid j ↔ ∃ step, Writes j step :=
  ⟨Valid.exists_writes, fun ⟨_, h⟩ => h.valid⟩

/-! ## The reader gives what is written -/

theorem nameOf_of_heading {name : String} {members : List (String × Json)}
    (heading : Heading name members) (location : String) : nameOf location members = .ok name := by
  rw [nameOf, heading.name]

theorem conditionOf_of_keys {members condition : List (String × Json)}
    (keys : ∀ m ∈ members, m.1 ∈ choiceKeys)
    (conditionAt : members.lookup "Condition" = some (.object condition)) (name : String) :
    conditionOf name members = .ok condition := by
  have hallowed : members.find? (fun m => !choiceKeys.contains m.1) = none := by
    refine List.find?_eq_none.mpr fun m hm => ?_
    simpa using keys m hm
  rw [conditionOf, hallowed, conditionAt]

/- By recursion on how the steps are written.  The location of a value only shows in faults, so it
is any. -/

mutual

/-- The reader gives the step that a value writes. -/
theorem ofJson_of_writes : ∀ {j : Json} {step : Step}, Writes j step →
    ∀ location, ofJson location j = .ok step
  | _, _, .task heading notChoice notParallel, location => by
      rw [ofJson, nameOf_of_heading heading location, ok_bind, heading.noNext, heading.noEnd]
      split
      · next htype => exact absurd htype notChoice
      · next htype => exact absurd htype notParallel
      · rfl
  | _, .choice _ _ _ whenFalse,
      .choice heading type keys conditionAt trueAt trueWritten falseWritten, location => by
      rw [ofJson, nameOf_of_heading heading location, ok_bind, heading.noNext, heading.noEnd,
        ← statedType, type]
      simp only [Option.isSome_none, Bool.or_self, Bool.false_eq_true, if_false]
      rw [conditionOf_of_keys keys conditionAt, ok_bind, listAt_eq, listAt_eq, StepField.key,
        trueAt, StepField.key, ofElse_of_writes falseWritten, Option.map_some,
        ofNested_of_writes trueWritten]
      cases whenFalse with
      | none => rfl
      | some steps => rfl
  | _, _, @Writes.parallel _ _ items _ heading type branchesAt nonempty branchesWritten,
      location => by
      rw [ofJson, nameOf_of_heading heading location, ok_bind, heading.noNext, heading.noEnd,
        ← statedType, type]
      simp only [Option.isSome_none, Bool.or_self, Bool.false_eq_true, if_false]
      rw [branchesAt_eq, branchesAt, Option.map_some]
      cases items with
      | nil => exact absurd rfl nonempty
      | cons first rest =>
        rw [ofBranchList, ofBranches_of_writes branchesWritten]
        rfl

theorem ofItems_of_writes : ∀ {items : List Json} {steps : List Step}, WritesItems items steps →
    ∀ location, ofItems location items = .ok steps
  | _, _, .nil, _ => rfl
  | _, _, .cons head tail, location => by
      rw [ofItems, ofJson_of_writes head location, ok_bind, ofItems_of_writes tail, ok_bind]
      rfl

theorem ofNested_of_writes : ∀ {j : Json} {steps : List Step}, WritesNested j steps →
    ∀ step field, ofNested step field j = .ok steps
  | _, _, @WritesNested.intro items _ nonempty written, step, field => by
      cases items with
      | nil => exact absurd rfl nonempty
      | cons first rest => exact ofItems_of_writes written (placeFirstIn step field)

theorem ofElse_of_writes : ∀ {nested : Option Json} {whenFalse : Option (List Step)},
    WritesElse nested whenFalse → ∀ step field,
    nested.map (ofNested step field) = whenFalse.map .ok
  | _, _, .missing, _, _ => rfl
  | _, _, .given written, step, field => congrArg some (ofNested_of_writes written step field)

theorem ofBranches_of_writes : ∀ {items : List Json} {branches : List (List Step)},
    WritesBranches items branches → ∀ step, ofBranches step items = .ok branches
  | _, _, .nil, _ => rfl
  | _, _, .cons head tail, step => by
      rw [ofBranches, ofNested_of_writes head, ok_bind, ofBranches_of_writes tail, ok_bind]
      rfl

end

/-- Reading a value and writing it are the same relation, wherever the value stands. -/
theorem ofJson_ok_iff {j : Json} {location : String} {step : Step} :
    ofJson location j = .ok step ↔ Writes j step :=
  ⟨writes_of_ofJson, fun h => ofJson_of_writes h location⟩

/-! ## The fault of a list -/

/-- Where an item stands behind the steps of its list: where the list starts if there are none. -/
def placeBehind (location : String) (steps : List Step) : String :=
  steps.getLast?.elim location fun step => placeAfter step.name

theorem placeBehind_cons (location : String) (step : Step) (steps : List Step) :
    placeBehind location (step :: steps) = placeBehind (placeAfter step.name) steps := by
  rw [placeBehind, placeBehind, List.getLast?_cons]
  cases steps.getLast? <;> rfl

/-- The fault of a list is the one of its first item that is no step, and whatever stands behind
that item, the list has the same fault. -/
inductive FirstFault (location : String) : List Json → PlanError → Prop
  | intro (before after : List Json) (steps : List Step) {bad : Json} {e : PlanError}
      (valid : ∀ item ∈ before, Valid item) (invalid : ¬ Valid bad)
      (read : ofItems location before = .ok steps)
      (fault : ofJson (placeBehind location steps) bad = .error e)
      (alone : ∀ others, ofItems location (before ++ bad :: others) = .error e) :
      FirstFault location (before ++ bad :: after) e

theorem invalid_of_error {location : String} {j : Json} {e : PlanError}
    (h : ofJson location j = .error e) : ¬ Valid j := by
  rw [valid_iff]
  rintro ⟨step, hwritten⟩
  cases h.symm.trans (ofJson_of_writes hwritten location)

namespace FirstFault

variable {location : String} {item : Json} {rest : List Json} {e : PlanError}

theorem here (h : ofJson location item = .error e) (rest : List Json) :
    FirstFault location (item :: rest) e := by
  refine .intro [] rest [] (List.forall_mem_nil _) (invalid_of_error h) rfl h fun others => ?_
  rw [List.nil_append, ofItems, h]
  rfl

/-- A step in front of a list moves its items behind that step and leaves its fault. -/
theorem behind {step : Step} (h : ofJson location item = .ok step)
    (hrest : FirstFault (placeAfter step.name) rest e) : FirstFault location (item :: rest) e := by
  obtain ⟨before, after, steps, hvalid, hinvalid, hread, hfault, halone⟩ := hrest
  refine .intro (item :: before) after (step :: steps)
    (List.forall_mem_cons.mpr ⟨(writes_of_ofJson h).valid, hvalid⟩) hinvalid ?_ ?_ fun others => ?_
  · rw [ofItems, h, ok_bind, hread]
    rfl
  · rw [placeBehind_cons]
    exact hfault
  · rw [List.cons_append, ofItems, h, ok_bind, halone others]
    rfl

end FirstFault

/-- A list that is refused is refused for its first item that is no step. -/
theorem firstFault_of_error : ∀ {items : List Json} {location : String} {e : PlanError},
    ofItems location items = .error e → FirstFault location items e
  | [], _, _, h => nomatch h
  | item :: rest, location, e, h => by
      rw [ofItems] at h
      cases hitem : ofJson location item with
      | error e' =>
        rw [hitem] at h
        cases h
        exact .here hitem rest
      | ok step =>
        rw [hitem, ok_bind] at h
        cases hrest : ofItems (placeAfter step.name) rest with
        | error e' =>
          rw [hrest] at h
          cases h
          exact .behind hitem (firstFault_of_error hrest)
        | ok steps =>
          rw [hrest] at h
          cases h

end Step

namespace Plan

theorem ofJson_of_writes {items : List Json} {plan : Plan}
    (h : Step.WritesItems items plan.steps) : ofJson (.array items) = .ok plan := by
  obtain ⟨steps, hne⟩ := plan
  rw [ofJson, Step.ofItems_of_writes h, ok_bind]
  cases steps with
  | nil => exact absurd rfl hne
  | cons step rest => rfl

/-- A refused value is no list, an empty one, or one with an item that is no step. -/
theorem error_cases {v : Json} {e : PlanError} (h : ofJson v = .error e) :
    (∀ items, v ≠ .array items) ∧ e = .unreadable "a deployment plan must be a list of steps" ∨
      v = .array [] ∧ e = .emptyPlan ∨
      ∃ items, v = .array items ∧ Step.FirstFault Step.placeFirst items e := by
  cases v with
  | array items =>
    refine .inr ?_
    rw [ofJson] at h
    cases hitems : Step.ofItems Step.placeFirst items with
    | error e' =>
      rw [hitems] at h
      cases h
      exact .inr ⟨items, rfl, Step.firstFault_of_error hitems⟩
    | ok steps =>
      rw [hitems, ok_bind] at h
      -- Only an empty list of steps is refused here, and only an empty list writes it.
      cases Step.writes_of_ofItems hitems with
      | nil => cases h; exact .inl ⟨rfl, rfl⟩
      | cons head tail => cases h
  | _ => cases h; exact .inl ⟨fun items hv => Json.noConfusion hv, rfl⟩

/-- The reader accepts a value exactly if it is a list of steps by the grammar, at every depth.  A
list that it refuses, the plan's own or one inside it, is refused for its first item that is no
step: the fault is the one that reading this item gives at its place, and the items behind it have
no influence on it. -/
theorem accepts_grammar (v : Json) :
    ((∃ plan, ofJson v = .ok plan) ↔ Step.ValidList v) ∧
      (∀ e, ofJson v = .error e →
        (∀ items, v ≠ .array items) ∧ e = .unreadable "a deployment plan must be a list of steps" ∨
          v = .array [] ∧ e = .emptyPlan ∨
          ∃ items, v = .array items ∧ Step.FirstFault Step.placeFirst items e) ∧
      ∀ step field items e, items ≠ [] → Step.ofNested step field (.array items) = .error e →
        Step.FirstFault (Step.placeFirstIn step field) items e := by
  refine ⟨⟨fun ⟨plan, h⟩ => ?_, fun h => ?_⟩, fun e h => error_cases h, ?_⟩
  · obtain ⟨items, rfl, hne, hwritten⟩ := writes_of_ofJson h
    exact .intro hne hwritten.valid
  · obtain ⟨steps, hne, hwritten⟩ := h.exists_writes
    cases hwritten with
    | nil => exact absurd rfl hne
    | @cons item rest step steps head tail =>
      exact ⟨⟨step :: steps, List.cons_ne_nil step steps⟩, ofJson_of_writes (.cons head tail)⟩
  · intro step field items e hne h
    cases items with
    | nil => exact absurd rfl hne
    | cons first rest => exact Step.firstFault_of_error h

/-- The first list of a choice, whose second item is no step. -/
def haltingItems : List Json := [.object [("Name", .string "B")], .null, .string "C"]

/-- A plan with `haltingItems` in its second item, and a number behind that. -/
def halting : Json :=
  .array [
    .object [("Name", .string "A")],
    .object [("Condition", .object []), ("IsTrue", .array haltingItems), ("Name", .string "C"),
      ("Type", .string "Choice")],
    .bool true]

theorem refuses_halting :
    ofJson halting = .error (.stepNotObject "null") ∧ ¬ Step.ValidList halting ∧
      (∃ items, halting = .array items ∧
        Step.FirstFault Step.placeFirst items (.stepNotObject "null")) ∧
      Step.FirstFault (Step.placeFirstIn "C" .isTrue) haltingItems (.stepNotObject "null") := by
  have hread : ofJson halting = .error (.stepNotObject "null") := by rfl
  obtain ⟨hvalid, hrefused, hnested⟩ := accepts_grammar halting
  refine ⟨hread, fun h => ?_, ?_, hnested "C" .isTrue _ _ (List.cons_ne_nil _ _) (by rfl)⟩
  · obtain ⟨plan, hplan⟩ := hvalid.mpr h
    cases hread.symm.trans hplan
  · rcases hrefused _ hread with ⟨hlist, -⟩ | ⟨hempty, -⟩ | hfault
    · exact absurd rfl (hlist _)
    · cases hempty
    · exact hfault

end Plan

end Rollout
