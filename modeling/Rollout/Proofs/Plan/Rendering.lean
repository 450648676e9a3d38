import Rollout.Graph.Document
import Rollout.Proofs.Json.Distinct
import Rollout.Proofs.Json.RoundTrip
import Rollout.Proofs.Plan.Grammar
import Rollout.Proofs.Plan.Links

/-!
# Authored steps in the rendered graph

Reading, compiling and rendering pass over the members of an object with different filters: the
reader takes out what it understands, the compiler leaves out a target in a condition, and the
document adds the types, graphs and exits again.  `Step.RendersStep` says what comes of a step in
the end, in terms of the authored object and the body of its state alone.

The states of a scope belong to more steps than its list has: a choice leaves those of its two lists
in the scope it stands in, while branches open scopes of their own.  `Step.scopeSteps` lists the
steps of a scope, and `Step.RendersSteps` says that its states are those of these steps, in this
order and with made-up states among them.

`Step.Rendering` relates the steps of a list to the states that the list is laid out as, and adds
that no body repeats a key.  Both halves are kept when lists are put behind each other
(`Step.Rendering.append`), and each kind of step has its own lemma, so the mutual recursion of the
layout (`Step.rendering_layout` and its companions) only puts them together. `Plan.renders_authored`
is the result for a plan.
-/

namespace Rollout

theorem State.stateMembers_eq_map (states : List State) :
    State.stateMembers states = states.map fun s => (s.name, s.document) := by
  induction states with
  | nil => rfl
  | cons s rest ih => rw [State.stateMembers, ih, List.map_cons]

/-- A rule keeps the members of its condition but for a target of its own. -/
theorem Rule.document_eq (condition : List (String × Json)) (target : String) :
    document ⟨condition, target⟩ =
      .object (Step.without ["Next"] condition ++ [("Next", .string target)]) := by
  have hkept : (fun m : String × Json => m.1 != "Next") = fun m => !(["Next"].contains m.1) := by
    funext m
    rw [List.contains_cons, List.contains_nil, Bool.or_false]
    rfl
  rw [Rule.document, Step.without, hkept]

namespace Step

/-! ## The steps of a scope -/

/-- The name that an authored step bears. -/
def authoredName (j : Json) : Option String := (j.member? "Name").bind Json.text?

mutual

/-- The steps whose states belong to the scope of a step: the step, and those in the lists of a
choice. -/
def scopeStepsOf : Json → List (List (String × Json))
  | .object members =>
    members ::
      if statedType members = some "Choice" then
        scopeStepsAt "IsTrue" members ++ scopeStepsAt "IsFalse" members
      else []
  | _ => []

/-- The steps of the scope that a list opens, in the authored order. -/
def scopeSteps : List Json → List (List (String × Json))
  | [] => []
  | item :: rest => scopeStepsOf item ++ scopeSteps rest

/-- The steps of a nested list. -/
def scopeStepsIn : Json → List (List (String × Json))
  | .array items => scopeSteps items
  | _ => []

/-- The steps of the nested list at a key. -/
def scopeStepsAt (key : String) : List (String × Json) → List (List (String × Json))
  | [] => []
  | (k, j) :: rest => if key == k then scopeStepsIn j else scopeStepsAt key rest

end

theorem scopeStepsAt_eq (key : String) (members : List (String × Json)) :
    scopeStepsAt key members = (members.lookup key).elim [] scopeStepsIn :=
  Entries.walk_eq_elim_lookup rfl (fun _ _ _ => rfl) members

/-! ## What a graph owes to the steps -/

/-- The member that a state ends with: where control goes behind it. -/
inductive Exit : String × Json → Prop
  | next (target : String) : Exit ("Next", .string target)
  | stop : Exit ("End", .bool true)

mutual

/-- The body is that of the state of a step. -/
inductive RendersStep : List (String × Json) → Json → Prop
  /-- A task keeps its members and gets an exit, which none of them is. -/
  | task {members : List (String × Json)} {exit : String × Json}
      (notChoice : statedType members ≠ some "Choice")
      (notParallel : statedType members ≠ some "Parallel")
      (free : members.lookup "Next" = none ∧ members.lookup "End" = none) (leaves : Exit exit) :
      RendersStep members (.object (without ["Name"] members ++ [exit]))
  /-- A choice has one rule, its condition with the start of the first list for a target. -/
  | choice {members condition : List (String × Json)} {items : List Json} {start default : String}
      (type : statedType members = some "Choice")
      (conditionAt : members.lookup "Condition" = some (.object condition))
      (trueAt : members.lookup "IsTrue" = some (.array items))
      (startAt : items.head?.bind authoredName = some start)
      (defaultAt : ∀ others, members.lookup "IsFalse" = some (.array others) →
        others.head?.bind authoredName = some default) :
      RendersStep members (.object [("Type", .string "Choice"),
        ("Choices", .array [.object (without ["Next"] condition ++ [("Next", .string start)])]),
        ("Default", .string default)])
  /-- A parallel step keeps its members but for the branches, which give way to their graphs. -/
  | parallel {members body : List (String × Json)} {branches graphs : List Json} {target : String}
      (type : statedType members = some "Parallel")
      (free : members.lookup "Next" = none ∧ members.lookup "End" = none)
      (branchesAt : members.lookup "Branches" = some (.array branches))
      (rendered : RendersBranches branches graphs)
      (membersKept : body.Perm (without ["Name", "Branches"] members ++
        [("Branches", .array graphs), ("Next", .string target)])) :
      RendersStep members (.object body)

/-- The states are those of the steps, each once under the name of its step and in the order of the
steps, among states that nobody has written. -/
inductive RendersSteps : List (List (String × Json)) → List (String × Json) → Prop
  | nil : RendersSteps [] []
  | step {members : List (String × Json)} {name : String} {body : Json}
      {steps : List (List (String × Json))} {states : List (String × Json)}
      (nameAt : members.lookup "Name" = some (.string name)) (head : RendersStep members body)
      (tail : RendersSteps steps states) :
      RendersSteps (members :: steps) ((name, body) :: states)
  | madeUp {name type : String} {exit : String × Json} {steps : List (List (String × Json))}
      {states : List (String × Json)} (leaves : Exit exit) (tail : RendersSteps steps states) :
      RendersSteps steps ((name, .object [("Type", .string type), exit]) :: states)

/-- The graph is that of the scope which the items open. -/
inductive RendersScope : List Json → Json → Prop
  | intro {items : List Json} {start : String} {states : List (String × Json)}
      (startAt : items.head?.bind authoredName = some start)
      (steps : RendersSteps (scopeSteps items) states) :
      RendersScope items (.object [("StartAt", .string start), ("States", .object states)])

/-- The graphs are those of the branches, in their order. -/
inductive RendersBranches : List Json → List Json → Prop
  | nil : RendersBranches [] []
  | cons {branch rest graphs : List Json} {graph : Json} (head : RendersScope branch graph)
      (tail : RendersBranches rest graphs) :
      RendersBranches (.array branch :: rest) (graph :: graphs)

end

theorem RendersSteps.append {steps steps' : List (List (String × Json))}
    {states states' : List (String × Json)} :
    RendersSteps steps states → RendersSteps steps' states' →
      RendersSteps (steps ++ steps') (states ++ states')
  | .nil, h' => h'
  | .step name head tail, h' => .step name head (tail.append h')
  | .madeUp exit tail, h' => .madeUp exit (tail.append h')

/-! ## Steps and their bodies -/

variable {mergeType : String}

/-- What control does behind a step is one exit. -/
theorem exit_handOver (successor : Option Step) :
    ∃ exit, Transition.members (some (handOver successor)) = [exit] ∧ Exit exit := by
  cases successor with
  | none => exact ⟨_, rfl, .stop⟩
  | some next => exact ⟨_, rfl, .next next.name⟩

theorem Writes.authoredName {j : Json} {step : Step} (h : Writes j step) :
    authoredName j = some step.name := by
  cases h with
  | task heading => rw [Step.authoredName, Json.member?, heading.name]; rfl
  | choice heading => rw [Step.authoredName, Json.member?, heading.name]; rfl
  | parallel heading => rw [Step.authoredName, Json.member?, heading.name]; rfl

theorem WritesItems.startName {items : List Json} {steps : List Step} (h : WritesItems items steps)
    (hne : items ≠ []) : items.head?.bind Step.authoredName = some (startName steps) := by
  cases h with
  | nil => exact absurd rfl hne
  | cons head tail => exact head.authoredName

theorem WritesElse.startName {items : List Json} {whenFalse : Option (List Step)}
    (h : WritesElse (some (.array items)) whenFalse) (successor : Option Step) (name : String) :
    items.head?.bind Step.authoredName = some (elseName successor name whenFalse) := by
  cases h with
  | given written =>
    cases written with
    | intro nonempty written => exact written.startName nonempty

theorem ne_of_mem_without {members : List (String × Json)} {key : String}
    (hfree : members.lookup key = none) (keys : List String) :
    ∀ m ∈ without keys members, m.1 ≠ key := by
  intro m hm
  have hne := List.lookup_eq_none_iff.mp hfree m (List.mem_filter.mp hm).1
  exact (bne_iff_ne.mp hne).symm

/-- The members of a parallel state are those of its step, the branches replaced. -/
theorem parallel_perm {members : List (String × Json)} (hnd : (members.map Prod.fst).Nodup)
    (htype : statedType members = some "Parallel") (added : List (String × Json)) :
    (("Type", Json.string "Parallel") ::
        (without ["Name", "Type", "Branches"] members ++ added)).Perm
      (without ["Name", "Branches"] members ++ added) := by
  have hmem : ("Type", Json.string "Parallel") ∈ without ["Name", "Branches"] members :=
    List.mem_filter.mpr ⟨Entries.mem_of_lookup (lookup_of_statedType htype), by simp⟩
  have hfilter : (without ["Name", "Branches"] members).filter (fun m => m.1 != "Type")
      = without ["Name", "Type", "Branches"] members := by
    rw [without, without, List.filter_filter]
    congr 1
    funext m
    simp only [List.contains_cons, List.contains_nil]
    grind
  have hkept : ((without ["Name", "Branches"] members).map Prod.fst).Nodup :=
    hnd.sublist (List.filter_sublist.map Prod.fst)
  have hfront := Entries.perm_cons_filter hkept hmem
  rw [hfilter] at hfront
  exact (hfront.append_right added).symm

/-! ## Layouts -/

/-- States that render steps, with no key repeated in a body. -/
structure Rendering (steps : List (List (String × Json))) (states : List State) : Prop where
  steps : RendersSteps steps (State.stateMembers states)
  distinct : ∀ s ∈ states, s.document.KeysDistinct

namespace Rendering

variable {steps steps' : List (List (String × Json))} {states states' : List State}

theorem nil : Rendering [] [] := ⟨.nil, fun _ hs => absurd hs List.not_mem_nil⟩

theorem append (h : Rendering steps states) (h' : Rendering steps' states') :
    Rendering (steps ++ steps') (states ++ states') where
  steps := by
    rw [State.stateMembers_eq_map, List.map_append, ← State.stateMembers_eq_map,
      ← State.stateMembers_eq_map]
    exact h.steps.append h'.steps
  distinct s hs := (List.mem_append.mp hs).elim (h.distinct s) (h'.distinct s)

theorem cons {members : List (String × Json)} {s : State}
    (hname : members.lookup "Name" = some (.string s.name)) (hbody : RendersStep members s.document)
    (hdistinct : s.document.KeysDistinct) (h : Rendering steps states) :
    Rendering (members :: steps) (s :: states) :=
  ⟨.step hname hbody h.steps, List.forall_mem_cons.mpr ⟨hdistinct, h.distinct⟩⟩

end Rendering

/-- Members of a step without a transition, and an exit. -/
theorem keysDistinct_with_exit {members : List (String × Json)}
    (hdistinct : (Json.object members).KeysDistinct) (hnext : ∀ m ∈ members, m.1 ≠ "Next")
    (hend : ∀ m ∈ members, m.1 ≠ "End") {exit : String × Json} (h : Exit exit) :
    (Json.object (members ++ [exit])).KeysDistinct := by
  cases h with
  | next target => exact hdistinct.append_member hnext trivial
  | stop => exact hdistinct.append_member hend trivial

/-- A state that nobody has written renders no step. -/
theorem rendering_madeUp {s : State} {type : String} {exit : String × Json} (h : Exit exit)
    (hbody : s.document = .object [("Type", .string type), exit]) : Rendering [] [s] where
  steps := by
    rw [State.stateMembers, hbody]
    exact .madeUp h .nil
  distinct := by
    intro t ht
    have htype : (Json.object [("Type", .string type)]).KeysDistinct := by simp
    rw [List.mem_singleton.mp ht, hbody]
    exact keysDistinct_with_exit htype (by simp) (by simp) h

/-! ## The states of one step -/

/-- A task with its members and an exit. -/
theorem rendering_task {name : String} {members : List (String × Json)}
    (heading : Heading name members) (notChoice : statedType members ≠ some "Choice")
    (notParallel : statedType members ≠ some "Parallel")
    (hdistinct : (Json.object members).KeysDistinct) (successor : Option Step) :
    Rendering [members]
      [.task name (without ["Name"] members) (some (handOver successor))] := by
  obtain ⟨exit, hexit, leaves⟩ := exit_handOver successor
  have hbody : (State.task name (without ["Name"] members) (some (handOver successor))).document
      = .object (without ["Name"] members ++ [exit]) := by
    rw [State.document, hexit]
  refine .cons heading.name ?_ ?_ .nil
  · rw [hbody]
    exact .task notChoice notParallel ⟨heading.noNext, heading.noEnd⟩ leaves
  · rw [hbody]
    exact keysDistinct_with_exit (hdistinct.filter _) (ne_of_mem_without heading.noNext _)
      (ne_of_mem_without heading.noEnd _) leaves

/-- A choice with one rule in front of the states of its lists. -/
theorem rendering_choice {name start default : String} {members condition : List (String × Json)}
    {items : List Json} {steps : List (List (String × Json))} {states : List State}
    (heading : Heading name members) (type : statedType members = some "Choice")
    (conditionAt : members.lookup "Condition" = some (.object condition))
    (trueAt : members.lookup "IsTrue" = some (.array items))
    (startAt : items.head?.bind authoredName = some start)
    (defaultAt : ∀ others, members.lookup "IsFalse" = some (.array others) →
      others.head?.bind authoredName = some default)
    (hdistinct : (Json.object members).KeysDistinct) (h : Rendering steps states) :
    Rendering (members :: steps) (.choice name [⟨condition, start⟩] default none :: states) := by
  have hbody : (State.choice name [⟨condition, start⟩] default none).document =
      .object [("Type", .string "Choice"),
        ("Choices", .array [.object (without ["Next"] condition ++ [("Next", .string start)])]),
        ("Default", .string default)] := by
    rw [State.document, List.map_singleton, Rule.document_eq, Transition.members, List.append_nil]
  have hcondition : (Json.object condition).KeysDistinct :=
    hdistinct.member (Entries.mem_of_lookup conditionAt)
  have hrule : (Json.object
      (without ["Next"] condition ++ [("Next", .string start)])).KeysDistinct :=
    (hcondition.filter _).append_member (by simp) trivial
  refine .cons heading.name ?_ ?_ h
  · rw [hbody]
    exact .choice type conditionAt trueAt startAt defaultAt
  · rw [hbody]
    simpa using hrule

/-- A parallel state with the graphs of its branches, and its merge state if there is one. -/
theorem rendering_joined {name : String} {members : List (String × Json)} {items : List Json}
    {scopes : List (Scope State)} (heading : Heading name members)
    (type : statedType members = some "Parallel")
    (branchesAt : members.lookup "Branches" = some (.array items))
    (hdistinct : (Json.object members).KeysDistinct)
    (rendered : RendersBranches items (State.branchDocuments scopes))
    (hscopes : ∀ graph ∈ State.branchDocuments scopes, graph.KeysDistinct)
    (successor : Option Step) :
    Rendering [members] (joined mergeType name scopes
      (without ["Name", "Type", "Branches"] members) successor) := by
  have hstate : ∀ target, Rendering [members] [.parallel name scopes
      (without ["Name", "Type", "Branches"] members) (some (.next target))] := by
    intro target
    have hperm := parallel_perm hdistinct.nodup_keys type
      [("Branches", .array (State.branchDocuments scopes)), ("Next", .string target)]
    refine .cons heading.name
      (.parallel type ⟨heading.noNext, heading.noEnd⟩ branchesAt rendered hperm) ?_ .nil
    have hbranches : (Json.object (without ["Name", "Branches"] members ++
        [("Branches", .array (State.branchDocuments scopes))])).KeysDistinct :=
      (hdistinct.filter _).append_member (by simp) ((Json.keysDistinct_array _).mpr hscopes)
    have hnext : ∀ m ∈ without ["Name", "Branches"] members ++
        [("Branches", .array (State.branchDocuments scopes))], m.1 ≠ "Next" :=
      List.forall_mem_append.mpr ⟨ne_of_mem_without heading.noNext _, by simp⟩
    have hall := hbranches.append_member hnext (Json.keysDistinct_string target)
    rw [List.append_assoc] at hall
    exact hall.perm hperm.symm
  rw [joined]
  split
  · exact hstate _
  · obtain ⟨exit, hexit, leaves⟩ := exit_handOver successor
    have hmerge : Rendering [] [.merge (name ++ "-Merge") mergeType (some (handOver successor))] :=
      rendering_madeUp leaves (by rw [State.document, hexit])
    exact (hstate _).append hmerge

/-- The graph of a list of steps whose names differ. -/
theorem rendersScope {items : List Json} {steps : List Step} (hwritten : WritesItems items steps)
    (hne : items ≠ []) (hnames : (layoutScope mergeType steps).names.Nodup)
    (h : Rendering (scopeSteps items) (layoutList mergeType none steps)) :
    RendersScope items (layoutScope mergeType steps).document ∧
      (layoutScope mergeType steps).document.KeysDistinct := by
  refine ⟨.intro (hwritten.startName hne) h.steps, ?_⟩
  have hstates : (Json.object
      (State.stateMembers (layoutList mergeType none steps))).KeysDistinct := by
    rw [Json.keysDistinct_object, State.stateMembers_eq_map, List.map_map]
    exact ⟨hnames, List.forall_mem_map.mpr h.distinct⟩
  change (Json.object [("StartAt", .string (startName steps)),
    ("States", .object (State.stateMembers (layoutList mergeType none steps)))]).KeysDistinct
  simp [hstates]

/-! ## All states -/

/- By recursion on how the steps are written.  Distinct names are needed for the graphs of branches
only, but have to be handed down to them. -/

mutual

theorem rendering_layout : ∀ {j : Json} {step : Step} {successor : Option Step}, Writes j step →
    j.KeysDistinct → Sound mergeType (places successor step) →
    Rendering (scopeStepsOf j) (layout mergeType successor step)
  | _, _, successor, .task heading notChoice notParallel, hj, _ => by
      rw [scopeStepsOf, if_neg notChoice, layout]
      exact rendering_task heading notChoice notParallel hj successor
  | _, _, successor, .choice heading type _ conditionAt trueAt htrue hfalse, hj, h => by
      rw [places] at h
      have hwhenTrue :=
        rendering_layoutNested htrue (hj.member (Entries.mem_of_lookup trueAt)) h.tail.left
      -- The states of both lists stand behind the choice, in its own scope.
      rw [scopeStepsOf, if_pos type, scopeStepsAt_eq, scopeStepsAt_eq, trueAt, layout]
      obtain ⟨hne, written⟩ := htrue
      refine rendering_choice heading type conditionAt trueAt (written.startName hne)
        (fun others hlookup => ?_) hj (hwhenTrue.append ?_)
      · rw [hlookup] at hfalse
        exact hfalse.startName successor _
      · exact rendering_layoutElse hfalse
          (fun j hlookup => hj.member (Entries.mem_of_lookup hlookup)) h.tail.right
  | _, _, successor, .parallel heading type branchesAt _ hbranches, hj, h => by
      rw [places] at h
      have hitems := (Json.keysDistinct_array _).mp (hj.member (Entries.mem_of_lookup branchesAt))
      obtain ⟨rendered, hscopes⟩ := rendering_layoutBranches hbranches hitems h.tail
      rw [scopeStepsOf, if_neg (by rw [type]; decide), layout]
      exact rendering_joined heading type branchesAt hj rendered hscopes successor

theorem rendering_layoutItems : ∀ {items : List Json} {steps : List Step}
    {successor : Option Step}, WritesItems items steps → (∀ j ∈ items, j.KeysDistinct) →
    Sound mergeType (placesInList successor steps) →
    Rendering (scopeSteps items) (layoutList mergeType successor steps)
  | _, _, _, .nil, _, _ => .nil
  | _, _, _, .cons head tail, hitems, h => by
      rw [placesInList] at h
      rw [scopeSteps, layoutList]
      obtain ⟨hitem, hrest⟩ := List.forall_mem_cons.mp hitems
      exact (rendering_layout head hitem h.left).append (rendering_layoutItems tail hrest h.right)

theorem rendering_layoutNested : ∀ {j : Json} {steps : List Step} {successor : Option Step},
    WritesNested j steps → j.KeysDistinct → Sound mergeType (placesInList successor steps) →
    Rendering (scopeStepsIn j) (layoutList mergeType successor steps)
  | _, _, _, .intro _ written, hj, h =>
      rendering_layoutItems written ((Json.keysDistinct_array _).mp hj) h

theorem rendering_layoutElse : ∀ {nested : Option Json} {whenFalse : Option (List Step)}
    {successor : Option Step} {name : String}, WritesElse nested whenFalse →
    (∀ j, nested = some j → j.KeysDistinct) → Sound mergeType (placesInElse successor whenFalse) →
    Rendering (nested.elim [] scopeStepsIn) (layoutElse mergeType successor name whenFalse)
  | _, _, some _, _, .missing, _, _ => .nil
  | _, _, none, _, .missing, _, _ => rendering_madeUp .stop rfl
  | _, _, _, _, .given written, hj, h => rendering_layoutNested written (hj _ rfl) h

theorem rendering_layoutBranches : ∀ {items : List Json} {branches : List (List Step)},
    WritesBranches items branches → (∀ j ∈ items, j.KeysDistinct) →
    Sound mergeType (placesInBranches branches) →
    RendersBranches items (State.branchDocuments (layoutBranches mergeType branches)) ∧
      ∀ graph ∈ State.branchDocuments (layoutBranches mergeType branches), graph.KeysDistinct
  | _, _, .nil, _, _ => by
      rw [layoutBranches, State.branchDocuments]
      exact ⟨.nil, fun _ hgraph => absurd hgraph List.not_mem_nil⟩
  | _, _, .cons head tail, hitems, h => by
      rw [placesInBranches] at h
      obtain ⟨hitem, hrest⟩ := List.forall_mem_cons.mp hitems
      have hbranch := rendering_layoutNested head hitem h.left
      -- The derivation is taken apart behind the recursive call, which needs it as a whole.
      obtain ⟨hne, written⟩ := head
      obtain ⟨hscope, hdistinct⟩ :=
        rendersScope written hne (layoutScope_names_nodup h.left) hbranch
      obtain ⟨hmore, hmoreDistinct⟩ := rendering_layoutBranches tail hrest h.right
      rw [layoutBranches, State.branchDocuments]
      exact ⟨.cons hscope hmore, List.forall_mem_cons.mpr ⟨hdistinct, hmoreDistinct⟩⟩

end

end Step

namespace Plan

/-- Authored data survives reading, compiling and rendering.  Of the authored value nothing is asked
but what holds of every value, that its objects repeat no key.  The document of the compiled plan
then repeats none either; it has the state of every authored step, once and under its name, in the
scope of the step; and the body of that state has the members of the step, unchanged but for what
its kind asks for.  The text of the graph is read back as this document, where it has no doubles and
is not nested too deep. -/
theorem renders_authored {mergeType : String} {v : Json} {plan : Plan} {graph : StateGraph}
    (hdistinct : v.KeysDistinct) (hread : ofJson v = .ok plan)
    (hcompile : plan.compile mergeType = .ok graph) :
    ∃ items, v = .array items ∧ graph.document.KeysDistinct ∧
      Step.RendersScope items graph.document ∧ graph.allNames.Nodup ∧
      (graph.document.NoDoubles → graph.document.depth ≤ Json.nestingLimit →
        Json.ofText graph.pretty = .ok graph.document.sortMembers) := by
  obtain ⟨items, rfl, hne, hwritten⟩ := writes_of_ofJson hread
  rw [compile_eq_link] at hcompile
  obtain ⟨rfl, hgaps, hnames⟩ := link_ok hcompile
  have hsound : Sound mergeType (Step.placesInList none plan.steps) := ⟨hgaps, hnames⟩
  have hstates := Step.rendering_layoutItems hwritten
    ((Json.keysDistinct_array items).mp hdistinct) hsound
  obtain ⟨hscope, hdocument⟩ :=
    Step.rendersScope hwritten hne (Step.layoutScope_names_nodup hsound) hstates
  exact ⟨items, rfl, hdocument, hscope,
    (Step.allNames_layoutList none plan.steps).nodup_iff.mpr hnames, Json.ofText_pretty⟩

/-- A plan whose choice has a target of its own in its condition, in front of a parallel step. -/
def written : Json :=
  .array [
    .object [("Condition", .object [("Next", .null), ("Variable", .string "v")]),
      ("IsTrue", .array [.object [("Name", .string "A"), ("Input", .object [("Next", .null)])]]),
      ("Name", .string "C"), ("Type", .string "Choice")],
    .object [("Branches", .array [.array [.object [("Name", .string "B")]]]),
      ("Name", .string "P"), ("Note", .null), ("Type", .string "Parallel")]]

/-- The steps of `written`. -/
def ofWritten : Plan where
  steps := [
    .choice "C" [("Next", .null), ("Variable", .string "v")]
      [.task "A" [("Input", .object [("Next", .null)])]] none,
    .parallel "P" [[.task "B" []]] [("Note", .null)]]
  nonempty := List.cons_ne_nil _ _

/-- The document of `ofWritten`. -/
def renderedWritten : Json :=
  .object [("StartAt", .string "C"), ("States", .object [
    ("C", .object [("Type", .string "Choice"),
      ("Choices", .array [.object [("Variable", .string "v"), ("Next", .string "A")]]),
      ("Default", .string "P")]),
    ("A", .object [("Input", .object [("Next", .null)]), ("Next", .string "P")]),
    ("P", .object [("Type", .string "Parallel"), ("Note", .null),
      ("Branches", .array [.object [("StartAt", .string "B"),
        ("States", .object [("B", .object [("End", .bool true)])])]]),
      ("Next", .string "P-Merge")]),
    ("P-Merge", .object [("Type", .string "Join"), ("End", .bool true)])])]

theorem renders_written :
    written.KeysDistinct ∧ ofJson written = .ok ofWritten ∧
      ofWritten.compile "Join" = .ok (ofWritten.layout "Join") ∧
      (ofWritten.layout "Join").document = renderedWritten ∧
      Json.ofText (ofWritten.layout "Join").pretty = .ok renderedWritten.sortMembers ∧
      ∃ items, written = .array items ∧ renderedWritten.KeysDistinct ∧
        Step.RendersScope items renderedWritten := by
  have hdistinct : written.KeysDistinct := by simp [written]
  have hread : ofJson written = .ok ofWritten := by rfl
  have hcompile : ofWritten.compile "Join" = .ok (ofWritten.layout "Join") := by rfl
  obtain ⟨items, hitems, hkeys, hscope, -, htext⟩ := renders_authored hdistinct hread hcompile
  have hdoubles : renderedWritten.NoDoubles := by simp [renderedWritten]
  have hdepth : renderedWritten.depth ≤ Json.nestingLimit := by decide +kernel
  exact ⟨hdistinct, hread, hcompile, rfl, htext hdoubles hdepth, items, hitems, hkeys, hscope⟩

end Plan

end Rollout
