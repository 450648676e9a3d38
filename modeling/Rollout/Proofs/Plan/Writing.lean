import Rollout.Proofs.Json.Values
import Rollout.Proofs.Plan.Acceptance

/-!
# Plans back to values

`Step.toJson` writes a step as the object that an author would write for it, and `Plan.toJson` a
plan as the list of these objects.

Reading takes the members of an object apart: some go into the step by their meaning, the others are
kept.  Writing puts each of them back at the place of its key.  On a value, whose keys ascend, that
gives the very members that were read (`Step.toJson_of_writes`), so reading loses and invents
nothing.  The other way round, a step is read off the object that writes it if its further fields
take no key that has a meaning (`Step.Writable`, `Step.writes_toJson`).  `Plan.round_trip` puts both
together.
-/

namespace Rollout

/-! ## Entries put in and taken out -/

namespace Entries

variable {κ α : Type} [Ord κ] [Std.LawfulEqOrd κ] {key : κ} {value : α}

omit [Ord κ] [Std.LawfulEqOrd κ] in
theorem lookup_cons_eq_ite [DecidableEq κ] (rest : List (κ × α)) (other : κ) :
    ((key, value) :: rest).lookup other =
      if other = key then some value else rest.lookup other := by
  rw [List.lookup_cons]
  by_cases h : other = key
  · rw [h, beq_self_eq_true, if_pos rfl]
  · rw [beq_false_of_ne h, if_neg h]

/-- A lookup behind an insertion, in whatever order the entries stand. -/
theorem lookup_insert [DecidableEq κ] (entries : List (κ × α)) (other : κ) :
    (insert key value entries).lookup other =
      if other = key then some value else entries.lookup other := by
  induction entries with
  | nil => exact lookup_cons_eq_ite [] other
  | cons e rest ih =>
    obtain ⟨k, v⟩ := e
    rw [insert]
    split
    next => exact lookup_cons_eq_ite _ other
    next heq =>
      cases Std.LawfulEqCmp.eq_of_compare heq
      rw [lookup_cons_eq_ite, lookup_cons_eq_ite]
      split <;> rfl
    next hgt =>
      have hne : k ≠ key := by
        rintro rfl
        simp at hgt
      rw [lookup_cons_eq_ite, lookup_cons_eq_ite, ih]
      grind

/-- Ascending entries are told by their lookups. -/
theorem ext_lookup [DecidableEq κ] [Std.TransOrd κ] {as bs : List (κ × α)} (ha : Ascending as)
    (hb : Ascending bs) (h : ∀ key, as.lookup key = bs.lookup key) : as = bs :=
  congrArg SortedMap.entries (SortedMap.ext_get? (a := ⟨as, ha⟩) (b := ⟨bs, hb⟩) h)

/-- An inserted entry that is not kept leaves nothing behind. -/
theorem filter_insert {kept : κ × α → Bool} (h : ∀ v, kept (key, v) = false)
    (entries : List (κ × α)) : (insert key value entries).filter kept = entries.filter kept := by
  induction entries with
  | nil => simp [insert, h]
  | cons e rest ih =>
    obtain ⟨k, v⟩ := e
    simp only [insert]
    split
    next => rw [List.filter_cons_of_neg (by simp [h])]
    next heq =>
      cases Std.LawfulEqCmp.eq_of_compare heq
      rw [List.filter_cons_of_neg (by simp [h]), List.filter_cons_of_neg (by simp [h])]
    next => rw [List.filter_cons, List.filter_cons, ih]

end Entries

namespace Step

theorem mem_without {keys : List String} {members : List (String × Json)} {m : String × Json} :
    m ∈ without keys members ↔ m ∈ members ∧ m.1 ∉ keys := by
  simp [without]

theorem lookup_without (keys : List String) (members : List (String × Json)) (key : String) :
    (without keys members).lookup key = if key ∈ keys then none else members.lookup key := by
  induction members with
  | nil => simp [without]
  | cons m rest ih =>
    obtain ⟨k, v⟩ := m
    rw [without] at ih ⊢
    rw [List.filter_cons]
    split
    next hk =>
      rw [Entries.lookup_cons_eq_ite, Entries.lookup_cons_eq_ite, ih]
      grind
    next hk =>
      rw [Entries.lookup_cons_eq_ite, ih]
      grind

theorem without_of_free {keys : List String} {members : List (String × Json)}
    (h : ∀ key ∈ keys, members.lookup key = none) : without keys members = members := by
  refine List.filter_eq_self.mpr fun m hm => ?_
  have hout : m.1 ∉ keys := by
    intro hkey
    exact absurd rfl (bne_iff_ne.mp (List.lookup_eq_none_iff.mp (h m.1 hkey) m hm))
  simpa using hout

theorem without_insert {key : String} {keys : List String} (h : key ∈ keys) (value : Json)
    (members : List (String × Json)) :
    without keys (Entries.insert key value members) = without keys members :=
  Entries.filter_insert (fun _ => by simpa using h) members

/-- A member that was taken out goes back to its place. -/
theorem insert_without {key : String} {value : Json} {keys : List String}
    {members : List (String × Json)} (hascending : Entries.Ascending members)
    (h : members.lookup key = some value) (hkey : key ∉ keys) :
    Entries.insert key value (without (key :: keys) members) = without keys members := by
  have hkept : ∀ keys, Entries.Ascending (without keys members) :=
    fun keys => hascending.sublist List.filter_sublist
  have hmem : ∀ v, (key, v) ∈ members ↔ v = value := by
    intro v
    rw [← Entries.lookup_eq_some_iff_mem hascending, h, Option.some.injEq, eq_comm]
  refine Entries.ext_mem (Entries.ascending_insert key value (hkept _)) (hkept keys) ?_
  rintro ⟨k, v⟩
  rw [Entries.mem_insert_iff (hkept _), mem_without, mem_without, List.mem_cons, not_or]
  by_cases hk : k = key
  · subst hk
    simp [hmem, hkey]
  · simp [hk]

/-! ## Written steps -/

/-- The members of a choice in the order of their keys. -/
def choiceMembers (name : String) (condition : List (String × Json)) (nested : Json)
    (other : Option Json) : List (String × Json) :=
  ("Condition", .object condition) :: ((other.map fun j => ("IsFalse", j)).toList ++
    [("IsTrue", nested), ("Name", .string name), ("Type", .string "Choice")])

mutual

/-- The object that writes a step. -/
def toJson : Step → Json
  | .task name fields => .object (Entries.insert "Name" (.string name) fields)
  | .choice name condition whenTrue whenFalse =>
    .object (choiceMembers name condition (.array (toItems whenTrue)) (elseToJson whenFalse))
  | .parallel name branches fields =>
    .object (Entries.insert "Branches" (.array (branchesToItems branches))
      (Entries.insert "Type" (.string "Parallel") (Entries.insert "Name" (.string name) fields)))

/-- The objects that write the steps. -/
def toItems : List Step → List Json
  | [] => []
  | step :: rest => step.toJson :: toItems rest

/-- The list that writes the second list of a choice, if there is one. -/
def elseToJson : Option (List Step) → Option Json
  | some steps => some (.array (toItems steps))
  | none => none

/-- The lists that write the branches. -/
def branchesToItems : List (List Step) → List Json
  | [] => []
  | branch :: rest => .array (toItems branch) :: branchesToItems rest

end

/-! ### The members of a choice -/

section

variable {name : String} {condition : List (String × Json)} {nested : Json} {other : Option Json}

theorem ascending_choiceMembers :
    Entries.Ascending (choiceMembers name condition nested other) := by
  have hkeys : ((choiceMembers name condition nested other).map Prod.fst).Pairwise
      fun a b => compare a b = .lt := by
    cases other with
    | none =>
      simp only [choiceMembers, Option.map_none, Option.toList_none, List.nil_append, List.map_cons,
        List.map_nil]
      decide
    | some j =>
      simp only [choiceMembers, Option.map_some, Option.toList_some, List.singleton_append,
        List.map_cons, List.map_nil]
      decide
  exact List.pairwise_map.mp hkeys

theorem lookup_choiceMembers (name : String) (condition : List (String × Json)) (nested : Json)
    (other : Option Json) :
    (choiceMembers name condition nested other).lookup "Condition" = some (.object condition) ∧
      (choiceMembers name condition nested other).lookup "IsFalse" = other ∧
      (choiceMembers name condition nested other).lookup "IsTrue" = some nested ∧
      (choiceMembers name condition nested other).lookup "Type" = some (.string "Choice") := by
  cases other with
  | none => exact ⟨rfl, rfl, rfl, rfl⟩
  | some j => exact ⟨rfl, rfl, rfl, rfl⟩

theorem heading_choiceMembers : Heading name (choiceMembers name condition nested other) := by
  cases other with
  | none => exact ⟨rfl, rfl, rfl⟩
  | some j => exact ⟨rfl, rfl, rfl⟩

theorem mem_choiceKeys_of_mem :
    ∀ m ∈ choiceMembers name condition nested other, m.1 ∈ choiceKeys := by
  cases other with
  | none => simp [choiceMembers, choiceKeys]
  | some j => simp [choiceMembers, choiceKeys]

theorem lookup_eq_none_of_keys {members : List (String × Json)}
    (keys : ∀ m ∈ members, m.1 ∈ choiceKeys) {key : String} (h : key ∉ choiceKeys) :
    members.lookup key = none := by
  refine List.lookup_eq_none_iff.mpr fun m hm => bne_iff_ne.mpr ?_
  rintro rfl
  exact h (keys m hm)

/-- The members of a choice that is a value are these. -/
theorem choiceMembers_eq {members : List (String × Json)} (hascending : Entries.Ascending members)
    (heading : Heading name members) (type : statedType members = some "Choice")
    (keys : ∀ m ∈ members, m.1 ∈ choiceKeys)
    (conditionAt : members.lookup "Condition" = some (.object condition))
    (trueAt : members.lookup "IsTrue" = some nested) :
    choiceMembers name condition nested (members.lookup "IsFalse") = members := by
  refine Entries.ext_lookup ascending_choiceMembers hascending fun key => ?_
  obtain ⟨hcondition, hfalse, htrue, htype⟩ :=
    lookup_choiceMembers name condition nested (members.lookup "IsFalse")
  by_cases hkey : key ∈ choiceKeys
  · simp only [choiceKeys, List.mem_cons, List.not_mem_nil, or_false] at hkey
    rcases hkey with rfl | rfl | rfl | rfl | rfl
    · rw [heading_choiceMembers.name, heading.name]
    · rw [htype, lookup_of_statedType type]
    · rw [htrue, trueAt]
    · rw [hfalse]
    · rw [hcondition, conditionAt]
  · rw [lookup_eq_none_of_keys mem_choiceKeys_of_mem hkey, lookup_eq_none_of_keys keys hkey]

end

/-! ## What was read is written back -/

mutual

/-- A value is written back by the step that it writes. -/
theorem toJson_of_writes : ∀ {j : Json} {step : Step}, Writes j step → j.IsValue → step.toJson = j
  | _, _, .task heading _ _, hj => by
      have hascending := ((Json.isValue_object _).mp hj).1
      rw [toJson, insert_without hascending heading.name List.not_mem_nil,
        without_of_free (List.forall_mem_nil _)]
  | _, _, .choice heading type keys conditionAt trueAt trueWritten falseWritten, hj => by
      obtain ⟨hascending, hmembers⟩ := (Json.isValue_object _).mp hj
      have htrue := toItems_of_writesNested trueWritten (hmembers _ (Entries.mem_of_lookup trueAt))
      have hfalse := elseToJson_of_writes falseWritten fun j hlookup =>
        hmembers _ (Entries.mem_of_lookup hlookup)
      rw [toJson, htrue, hfalse, choiceMembers_eq hascending heading type keys conditionAt trueAt]
  | _, _, .parallel heading type branchesAt _ branchesWritten, hj => by
      obtain ⟨hascending, hmembers⟩ := (Json.isValue_object _).mp hj
      have hbranches := branchesToItems_of_writes branchesWritten
        ((Json.isValue_array _).mp (hmembers _ (Entries.mem_of_lookup branchesAt)))
      rw [toJson, hbranches, insert_without hascending heading.name (by decide),
        insert_without hascending (lookup_of_statedType type) (by decide),
        insert_without hascending branchesAt List.not_mem_nil,
        without_of_free (List.forall_mem_nil _)]

theorem toItems_of_writes : ∀ {items : List Json} {steps : List Step}, WritesItems items steps →
    (∀ j ∈ items, j.IsValue) → toItems steps = items
  | _, _, .nil, _ => rfl
  | _, _, .cons head tail, hitems => by
      obtain ⟨hitem, hrest⟩ := List.forall_mem_cons.mp hitems
      rw [toItems, toJson_of_writes head hitem, toItems_of_writes tail hrest]

theorem toItems_of_writesNested : ∀ {j : Json} {steps : List Step}, WritesNested j steps →
    j.IsValue → .array (toItems steps) = j
  | _, _, .intro _ written, hj => by
      rw [toItems_of_writes written ((Json.isValue_array _).mp hj)]

theorem elseToJson_of_writes : ∀ {nested : Option Json} {whenFalse : Option (List Step)},
    WritesElse nested whenFalse → (∀ j, nested = some j → j.IsValue) → elseToJson whenFalse = nested
  | _, _, .missing, _ => rfl
  | _, _, .given written, hj => by
      rw [elseToJson, toItems_of_writesNested written (hj _ rfl)]

theorem branchesToItems_of_writes : ∀ {items : List Json} {branches : List (List Step)},
    WritesBranches items branches → (∀ j ∈ items, j.IsValue) → branchesToItems branches = items
  | _, _, .nil, _ => rfl
  | _, _, .cons head tail, hitems => by
      obtain ⟨hitem, hrest⟩ := List.forall_mem_cons.mp hitems
      rw [branchesToItems, toItems_of_writesNested head hitem, branchesToItems_of_writes tail hrest]

end

/-! ## What was written is read back -/

mutual

/-- The step can be told from the object that writes it: its further fields leave the keys alone
that have a meaning in it, a task does not pass for another kind of step, and no list in it is
empty. -/
inductive Writable : Step → Prop
  | task {name : String} {fields : List (String × Json)}
      (free : ∀ key ∈ ["Name", "Next", "End"], fields.lookup key = none)
      (notChoice : statedType fields ≠ some "Choice")
      (notParallel : statedType fields ≠ some "Parallel") :
      Writable (.task name fields)
  | choice {name : String} {condition : List (String × Json)} {whenTrue : List Step}
      {whenFalse : Option (List Step)} (trueWritable : WritableList whenTrue)
      (falseWritable : ∀ steps, whenFalse = some steps → WritableList steps) :
      Writable (.choice name condition whenTrue whenFalse)
  | parallel {name : String} {branches : List (List Step)} {fields : List (String × Json)}
      (free : ∀ key ∈ ["Name", "Type", "Branches", "Next", "End"], fields.lookup key = none)
      (nonempty : branches ≠ []) (branchesWritable : ∀ branch ∈ branches, WritableList branch) :
      Writable (.parallel name branches fields)

/-- There are steps in the list, and each can be told from its object. -/
inductive WritableList : List Step → Prop
  | intro {steps : List Step} (nonempty : steps ≠ []) (writable : ∀ step ∈ steps, Writable step) :
      WritableList steps

end

theorem writesItems_toItems : ∀ {steps : List Step}, (∀ step ∈ steps, Writes step.toJson step) →
    WritesItems (toItems steps) steps
  | [], _ => .nil
  | _ :: _, h =>
      .cons (List.forall_mem_cons.mp h).1 (writesItems_toItems (List.forall_mem_cons.mp h).2)

theorem writesElse_elseToJson {whenFalse : Option (List Step)}
    (h : ∀ steps, whenFalse = some steps → WritesNested (.array (toItems steps)) steps) :
    WritesElse (elseToJson whenFalse) whenFalse := by
  cases whenFalse with
  | none => exact .missing
  | some steps => exact .given (h steps rfl)

theorem writesBranches_branchesToItems : ∀ {branches : List (List Step)},
    (∀ branch ∈ branches, WritesNested (.array (toItems branch)) branch) →
    WritesBranches (branchesToItems branches) branches
  | [], _ => .nil
  | _ :: _, h => .cons (List.forall_mem_cons.mp h).1
      (writesBranches_branchesToItems (List.forall_mem_cons.mp h).2)

theorem toItems_ne_nil : ∀ {steps : List Step}, steps ≠ [] → toItems steps ≠ []
  | [], h => absurd rfl h
  | _ :: _, _ => List.cons_ne_nil _ _

theorem branchesToItems_ne_nil : ∀ {branches : List (List Step)}, branches ≠ [] →
    branchesToItems branches ≠ []
  | [], h => absurd rfl h
  | _ :: _, _ => List.cons_ne_nil _ _

theorem writes_task {name : String} {fields : List (String × Json)}
    (free : ∀ key ∈ ["Name", "Next", "End"], fields.lookup key = none)
    (notChoice : statedType fields ≠ some "Choice")
    (notParallel : statedType fields ≠ some "Parallel") :
    Writes (toJson (.task name fields)) (.task name fields) := by
  have hlookup : ∀ key, (Entries.insert "Name" (.string name) fields).lookup key =
      if key = "Name" then some (.string name) else fields.lookup key :=
    Entries.lookup_insert fields
  have heading : Heading name (Entries.insert "Name" (.string name) fields) :=
    ⟨hlookup "Name", (hlookup "Next").trans (free "Next" (by simp)),
      (hlookup "End").trans (free "End" (by simp))⟩
  have htype : statedType (Entries.insert "Name" (.string name) fields) = statedType fields :=
    congrArg (Option.bind · Json.text?) (hlookup "Type")
  have hfields : without ["Name"] (Entries.insert "Name" (.string name) fields) = fields := by
    rw [without_insert List.mem_cons_self]
    exact without_of_free fun key hkey => free key (List.mem_append_left ["Next", "End"] hkey)
  have hwritten := Writes.task heading (htype ▸ notChoice) (htype ▸ notParallel)
  rw [hfields] at hwritten
  rw [toJson]
  exact hwritten

theorem writes_parallel {name : String} {branches : List (List Step)}
    {fields : List (String × Json)}
    (free : ∀ key ∈ ["Name", "Type", "Branches", "Next", "End"], fields.lookup key = none)
    (nonempty : branches ≠ []) (h : WritesBranches (branchesToItems branches) branches) :
    Writes (toJson (.parallel name branches fields)) (.parallel name branches fields) := by
  have hlookup : ∀ key, (Entries.insert "Branches" (.array (branchesToItems branches))
      (Entries.insert "Type" (.string "Parallel")
        (Entries.insert "Name" (.string name) fields))).lookup key =
      if key = "Branches" then some (.array (branchesToItems branches))
      else if key = "Type" then some (.string "Parallel")
      else if key = "Name" then some (.string name) else fields.lookup key := by
    intro key
    rw [Entries.lookup_insert, Entries.lookup_insert, Entries.lookup_insert]
  have heading : Heading name _ :=
    ⟨hlookup "Name", (hlookup "Next").trans (free "Next" (by simp)),
      (hlookup "End").trans (free "End" (by simp))⟩
  have hfields : without ["Name", "Type", "Branches"]
      (Entries.insert "Branches" (.array (branchesToItems branches))
        (Entries.insert "Type" (.string "Parallel")
          (Entries.insert "Name" (.string name) fields))) = fields := by
    rw [without_insert (by simp), without_insert (by simp), without_insert (by simp)]
    exact without_of_free fun key hkey => free key (List.mem_append_left ["Next", "End"] hkey)
  have hwritten := Writes.parallel heading (congrArg (Option.bind · Json.text?) (hlookup "Type"))
    (hlookup "Branches") (branchesToItems_ne_nil nonempty) h
  rw [hfields] at hwritten
  rw [toJson]
  exact hwritten

mutual

/-- The object of a step writes it. -/
theorem writes_toJson : ∀ {step : Step}, Writable step → Writes step.toJson step
  | _, .task free notChoice notParallel => writes_task free notChoice notParallel
  | _, .choice trueWritable falseWritable => by
      rw [toJson]
      obtain ⟨hcondition, hfalse, htrue, htype⟩ := lookup_choiceMembers _ _ _ _
      refine .choice heading_choiceMembers ?_ mem_choiceKeys_of_mem hcondition htrue
        (writesNested_toItems trueWritable) ?_
      · rw [statedType, htype]
        rfl
      · rw [hfalse]
        exact writesElse_elseToJson fun steps hsteps =>
          writesNested_toItems (falseWritable steps hsteps)
  | _, .parallel free nonempty branchesWritable =>
      writes_parallel free nonempty (writesBranches_branchesToItems fun branch hbranch =>
        writesNested_toItems (branchesWritable branch hbranch))

theorem writesNested_toItems : ∀ {steps : List Step}, WritableList steps →
    WritesNested (.array (toItems steps)) steps
  | _, .intro nonempty writable =>
      .intro (toItems_ne_nil nonempty)
        (writesItems_toItems fun step hstep => writes_toJson (writable step hstep))

end

/-! ## What was read can be written -/

theorem WritesItems.ne_nil {items : List Json} {steps : List Step} (h : WritesItems items steps)
    (hne : items ≠ []) : steps ≠ [] := by
  cases h with
  | nil => exact absurd rfl hne
  | cons head tail => exact List.cons_ne_nil _ _

theorem WritesBranches.ne_nil {items : List Json} {branches : List (List Step)}
    (h : WritesBranches items branches) (hne : items ≠ []) : branches ≠ [] := by
  cases h with
  | nil => exact absurd rfl hne
  | cons head tail => exact List.cons_ne_nil _ _

/-- The fields that a step keeps have none of the keys taken out, and no transition. -/
theorem free_without {name : String} {members : List (String × Json)}
    (heading : Heading name members) (keys : List String) :
    ∀ key ∈ keys ++ ["Next", "End"], (without keys members).lookup key = none := by
  intro key hkey
  rw [lookup_without]
  split
  · rfl
  next hout =>
    rcases List.mem_append.mp hkey with hin | hin
    · exact absurd hin hout
    · simp only [List.mem_cons, List.not_mem_nil, or_false] at hin
      rcases hin with rfl | rfl
      · exact heading.noNext
      · exact heading.noEnd

mutual

/-- A step that was read can be told from the object that writes it. -/
theorem Writes.writable : ∀ {j : Json} {step : Step}, Writes j step → Writable step
  | _, _, @Writes.task _ members heading notChoice notParallel => by
      have htype : statedType (without ["Name"] members) = statedType members :=
        congrArg (Option.bind · Json.text?) (lookup_without ["Name"] members "Type")
      exact .task (free_without heading ["Name"]) (htype ▸ notChoice) (htype ▸ notParallel)
  | _, _, .choice _ _ _ _ _ trueWritten falseWritten =>
      .choice trueWritten.writable falseWritten.writable
  | _, _, .parallel heading _ _ nonempty branchesWritten =>
      .parallel (free_without heading ["Name", "Type", "Branches"])
        (branchesWritten.ne_nil nonempty) branchesWritten.writable

theorem WritesItems.writable : ∀ {items : List Json} {steps : List Step}, WritesItems items steps →
    ∀ step ∈ steps, Writable step
  | _, _, .nil, _, hstep => absurd hstep List.not_mem_nil
  | _, _, .cons head tail, step, hstep => by
      rcases List.mem_cons.mp hstep with hstep | hstep
      · exact hstep ▸ head.writable
      · exact tail.writable step hstep

theorem WritesNested.writable : ∀ {j : Json} {steps : List Step}, WritesNested j steps →
    WritableList steps
  | _, _, .intro nonempty written => .intro (written.ne_nil nonempty) written.writable

theorem WritesElse.writable : ∀ {nested : Option Json} {whenFalse : Option (List Step)},
    WritesElse nested whenFalse → ∀ steps, whenFalse = some steps → WritableList steps
  | _, _, .missing, _, hsteps => nomatch hsteps
  | _, _, .given written, _, hsteps => Option.some.inj hsteps ▸ written.writable

theorem WritesBranches.writable : ∀ {items : List Json} {branches : List (List Step)},
    WritesBranches items branches → ∀ branch ∈ branches, WritableList branch
  | _, _, .nil, _, hbranch => absurd hbranch List.not_mem_nil
  | _, _, .cons head tail, branch, hbranch => by
      rcases List.mem_cons.mp hbranch with hbranch | hbranch
      · exact hbranch ▸ head.writable
      · exact tail.writable branch hbranch

end

end Step

namespace Plan

/-- The list that writes a plan. -/
def toJson (plan : Plan) : Json := .array (Step.toItems plan.steps)

/-- A value that the reader accepts is the one that its plan is written as. -/
theorem toJson_of_ofJson {v : Json} {plan : Plan} (hv : v.IsValue) (h : ofJson v = .ok plan) :
    plan.toJson = v := by
  obtain ⟨items, rfl, -, hwritten⟩ := writes_of_ofJson h
  rw [toJson, Step.toItems_of_writes hwritten ((Json.isValue_array items).mp hv)]

/-- Reading and writing undo each other.  An accepted value is written back as it was, and its steps
can be told from what is written; a plan of such steps is read back as it was.  So two values that
are accepted and differ give plans that differ. -/
theorem round_trip :
    (∀ (v : Json) (plan : Plan), v.IsValue → ofJson v = .ok plan →
        plan.toJson = v ∧ Step.WritableList plan.steps) ∧
      (∀ plan : Plan, (∀ step ∈ plan.steps, step.Writable) → ofJson plan.toJson = .ok plan) ∧
      ∀ (v w : Json) (plan plan' : Plan), v.IsValue → w.IsValue → ofJson v = .ok plan →
        ofJson w = .ok plan' → v ≠ w → plan ≠ plan' := by
  refine ⟨fun v plan hv h => ⟨toJson_of_ofJson hv h, ?_⟩, fun plan hwritable => ?_, ?_⟩
  · obtain ⟨items, -, hne, hwritten⟩ := writes_of_ofJson h
    exact .intro plan.nonempty hwritten.writable
  · exact ofJson_of_writes
      (Step.writesItems_toItems fun step hstep => Step.writes_toJson (hwritable step hstep))
  · rintro v w plan _ hv hw hread hread' hne rfl
    exact hne ((toJson_of_ofJson hv hread).symm.trans (toJson_of_ofJson hw hread'))

/-- A choice between a task and a parallel step with a note. -/
def branching (note : Json) : Json :=
  .array [.object [
    ("Condition", .object [("Variable", .string "v")]),
    ("IsFalse", .array [.object [("Branches", .array [.array [.object [("Name", .string "B")]]]),
      ("Name", .string "P"), ("Note", note), ("Type", .string "Parallel")]]),
    ("IsTrue", .array [.object [("Input", .null), ("Name", .string "A"), ("Type", .bool true)]]),
    ("Name", .string "C"), ("Type", .string "Choice")]]

/-- The steps of `branching`. -/
def ofBranching (note : Json) : Plan where
  steps := [.choice "C" [("Variable", .string "v")]
    [.task "A" [("Input", .null), ("Type", .bool true)]]
    (some [.parallel "P" [[.task "B" []]] [("Note", note)]])]
  nonempty := List.cons_ne_nil _ _

theorem round_trip_branching :
    (branching .null).IsValue ∧ ofJson (branching .null) = .ok (ofBranching .null) ∧
      (ofBranching .null).toJson = branching .null ∧
      ofJson (ofBranching .null).toJson = .ok (ofBranching .null) ∧
      ofBranching .null ≠ ofBranching (.bool true) := by
  have hread : ∀ note, ofJson (branching note) = .ok (ofBranching note) := fun note => by rfl
  have hnull : (branching .null).IsValue := by decide
  have hbool : (branching (.bool true)).IsValue := by decide
  obtain ⟨hwritten, hback, hdistinct⟩ := round_trip
  obtain ⟨htext, -, hwritable⟩ := hwritten _ _ hnull (hread .null)
  exact ⟨hnull, hread .null, htext, hback _ hwritable,
    hdistinct _ _ _ _ hnull hbool (hread .null) (hread (.bool true)) (by decide)⟩

end Plan

end Rollout
