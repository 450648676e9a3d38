import Mathlib.Data.List.Nodup
import Mathlib.Data.List.Pairwise
import Rollout.Proofs.Plan.Links

/-!
# The joins of parallel states

Behind its branches a parallel state hands over to one state of the merge type.  That is its
successor if this is a task of the type; otherwise a merge state is made up for it.  `HasJoin` says
both of a parallel state in its scope, and `JoinsOnce` matches the parallel states of a scope with
its merge states.

Three facts about layouts carry this, each proved along the recursion of the layout for a list with
any successor.

* `layoutList_occurs`: every place has its state, in the scope or inside it.
* `layoutList_forked`: a parallel state and a merge state stand among the states of one place, and
  the successor of the place is laid out in the same scope or comes from outside.
* `layoutList_aim`: a target is the name of a step of the scope, or the successor from outside, or a
  name that was made up for the place of the state itself.

The names of all places differ, so a name tells its place (`eq_of_mem_names`).  Hence a made-up name
is the target of no state but the one it was made up for, and `Plan.joins_once` follows.
-/

namespace Rollout

/-! ## Places and their names -/

namespace State

/-- Where branches part or meet. -/
def IsFork : State → Prop
  | .parallel .. => True
  | .merge .. => True
  | _ => False

/-- The state is one of the states or inside their branches, at whatever depth. -/
def Occurs (s : State) (states : List State) : Prop :=
  s ∈ states ∨ ∃ g ∈ scopesInStates states, s ∈ g.states

namespace Occurs

variable {s : State} {states : List State}

theorem append_left (h : s.Occurs states) (more : List State) : s.Occurs (states ++ more) := by
  rcases h with h | ⟨g, hg, h⟩
  · exact .inl (List.mem_append_left _ h)
  · rw [Occurs, scopesInStates_append]
    exact .inr ⟨g, List.mem_append_left _ hg, h⟩

theorem append_right (h : s.Occurs states) (more : List State) : s.Occurs (more ++ states) := by
  rcases h with h | ⟨g, hg, h⟩
  · exact .inl (List.mem_append_right _ h)
  · rw [Occurs, scopesInStates_append]
    exact .inr ⟨g, List.mem_append_right _ hg, h⟩

end Occurs

end State

namespace Step

variable {mergeType : String}

/-- Where names differ, each belongs to one place. -/
theorem eq_of_mem_names {places : List Place} (h : (namesAt mergeType places).Nodup) {p q : Place}
    (hp : p ∈ places) (hq : q ∈ places) {name : String} (hpn : name ∈ p.names mergeType)
    (hqn : name ∈ q.names mergeType) : p = q := by
  by_contra hne
  have hdisjoint := (List.nodup_flatMap.mp h).2
  have : Std.Symm (Function.onFun List.Disjoint (Place.names mergeType)) :=
    ⟨fun _ _ hab => List.disjoint_symm hab⟩
  exact hdisjoint.forall hp hq hne hpn hqn

theorem isJoin_iff {step : Step} : isJoin mergeType step = true ↔
    ∃ name fields, step = .task name fields ∧ step.type? = some mergeType := by
  cases step with
  | task name fields =>
    rw [isJoin, beq_iff_eq]
    exact ⟨fun h => ⟨name, fields, rfl, h⟩, fun ⟨_, _, _, h⟩ => h⟩
  | choice => exact ⟨(nomatch ·), fun ⟨_, _, h, _⟩ => nomatch h⟩
  | parallel => exact ⟨(nomatch ·), fun ⟨_, _, h, _⟩ => nomatch h⟩

theorem mem_places (successor : Option Step) (step : Step) :
    ⟨step, successor⟩ ∈ places successor step := by
  cases step <;> exact List.mem_cons_self

theorem exists_place_startName (successor : Option Step) {steps : List Step} (h : steps ≠ []) :
    ∃ p ∈ placesInList successor steps, p.step.name = startName steps := by
  cases steps with
  | nil => exact absurd rfl h
  | cons first rest => exact ⟨_, List.mem_append_left _ (mem_places _ first), rfl⟩

/-! ## Every place has its state -/

theorem state_mem_layout (mergeType : String) (successor : Option Step) (step : Step) :
    Place.state mergeType ⟨step, successor⟩ ∈ layout mergeType successor step := by
  obtain ⟨rest, heq⟩ := layout_eq_cons mergeType successor step
  rw [heq]
  exact List.mem_cons_self

mutual

theorem layout_occurs : ∀ (successor : Option Step) (step : Step),
    ∀ p ∈ places successor step, (p.state mergeType).Occurs (layout mergeType successor step)
  | successor, .task name fields, p, hp => by
      rw [List.mem_singleton.mp hp]
      exact .inl (state_mem_layout mergeType successor _)
  | successor, .choice name condition whenTrue whenFalse, p, hp => by
      rcases List.mem_cons.mp hp with rfl | hp
      · exact .inl (state_mem_layout mergeType successor _)
      · rw [layout]
        rcases List.mem_append.mp hp with hp | hp
        · exact ((layoutList_occurs successor whenTrue p hp).append_left _).append_right [_]
        · exact ((layoutElse_occurs successor name whenFalse p hp).append_right _).append_right [_]
  | successor, .parallel name lists fields, p, hp => by
      rcases List.mem_cons.mp hp with rfl | hp
      · exact .inl (state_mem_layout mergeType successor _)
      · rw [layout, State.Occurs, scopesInStates_joined]
        exact .inr (layoutBranches_occurs lists p hp)

theorem layoutList_occurs : ∀ (successor : Option Step) (steps : List Step),
    ∀ p ∈ placesInList successor steps,
      (p.state mergeType).Occurs (layoutList mergeType successor steps)
  | _, [], _, hp => absurd hp List.not_mem_nil
  | successor, step :: rest, p, hp => by
      rw [layoutList]
      rcases List.mem_append.mp hp with hp | hp
      · exact (layout_occurs _ step p hp).append_left _
      · exact (layoutList_occurs successor rest p hp).append_right _

theorem layoutElse_occurs : ∀ (successor : Option Step) (name : String)
    (whenFalse : Option (List Step)), ∀ p ∈ placesInElse successor whenFalse,
      (p.state mergeType).Occurs (layoutElse mergeType successor name whenFalse)
  | successor, _, some steps, p, hp => layoutList_occurs successor steps p hp
  | _, _, none, _, hp => absurd hp List.not_mem_nil

theorem layoutBranches_occurs : ∀ branches : List (List Step),
    ∀ p ∈ placesInBranches branches,
      ∃ g ∈ State.scopesInBranches (layoutBranches mergeType branches), p.state mergeType ∈ g.states
  | [], _, hp => absurd hp List.not_mem_nil
  | branch :: rest, p, hp => by
      rw [layoutBranches, State.scopesInBranches, State.scopesOf]
      rcases List.mem_append.mp hp with hp | hp
      · rcases layoutList_occurs none branch p hp with hs | ⟨g, hg, hs⟩
        · exact ⟨_, List.mem_cons_self, hs⟩
        · exact ⟨g, List.mem_cons_of_mem _ (List.mem_append_left _ hg), hs⟩
      · obtain ⟨g, hg, hs⟩ := layoutBranches_occurs rest p hp
        exact ⟨g, List.mem_append_right _ hg, hs⟩

end

/-! ## Parallel and merge states -/

/-- The state comes of a parallel step among the places. Its states stand together, and the
successor of the step comes from outside or is laid out beside them. -/
inductive Forked (mergeType : String) (outer : Option Step) (places : List Place)
    (states : List State) (s : State) : Prop where
  | of (name : String) (lists : List (List Step)) (fields : List (String × Json))
      (successor : Option Step) (place : ⟨.parallel name lists fields, successor⟩ ∈ places)
      (mem : s ∈ joined mergeType name (layoutBranches mergeType lists) fields successor)
      (together :
        joined mergeType name (layoutBranches mergeType lists) fields successor <:+: states)
      (beside : ∀ next, successor = some next →
        outer = some next ∨ ∃ beyond, layout mergeType beyond next <:+: states)

namespace Forked

variable {outer outer' : Option Step} {places places' : List Place} {states states' : List State}
  {s : State}

/-- More places and more states around it change nothing, as long as what comes from outside is laid
out among the states now or comes from outside still. -/
theorem mono (h : Forked mergeType outer places states s) (hplaces : places.Sublist places')
    (hstates : states <:+: states') (houter : ∀ next, outer = some next →
      outer' = some next ∨ ∃ beyond, layout mergeType beyond next <:+: states') :
    Forked mergeType outer' places' states' s := by
  obtain ⟨name, lists, fields, successor, place, mem, together, beside⟩ := h
  refine ⟨name, lists, fields, successor, hplaces.subset place, mem, together.trans hstates,
    fun next hnext => ?_⟩
  rcases beside next hnext with hout | ⟨beyond, hbeyond⟩
  · exact houter next hout
  · exact .inr ⟨beyond, hbeyond.trans hstates⟩

end Forked

mutual

theorem layout_forked : ∀ (successor : Option Step) (step : Step),
    ∀ s ∈ layout mergeType successor step, s.IsFork →
      Forked mergeType successor (places successor step) (layout mergeType successor step) s
  | successor, .task name fields, s, hs, hfork => by
      rw [layout] at hs
      rw [List.mem_singleton.mp hs] at hfork
      exact hfork.elim
  | successor, .choice name condition whenTrue whenFalse, s, hs, hfork => by
      rw [layout] at hs
      rw [layout, places]
      rcases List.mem_cons.mp hs with rfl | hs
      · exact hfork.elim
      · rcases List.mem_append.mp hs with hs | hs
        · exact (layoutList_forked successor whenTrue s hs hfork).mono
            (.cons _ (List.sublist_append_left _ _))
            (List.infix_append_left.trans (List.infix_cons (List.infix_refl _))) fun _ => .inl
        · exact (layoutElse_forked successor name whenFalse s hs hfork).mono
            (.cons _ (List.sublist_append_right _ _))
            (List.infix_append_right.trans (List.infix_cons (List.infix_refl _))) fun _ => .inl
  | successor, .parallel name lists fields, s, hs, _ => by
      rw [layout] at hs ⊢
      exact ⟨name, lists, fields, successor, List.mem_cons_self, hs, List.infix_refl _,
        fun _ => .inl⟩

theorem layoutList_forked : ∀ (successor : Option Step) (steps : List Step),
    ∀ s ∈ layoutList mergeType successor steps, s.IsFork →
      Forked mergeType successor (placesInList successor steps)
        (layoutList mergeType successor steps) s
  | _, [], _, hs, _ => absurd hs List.not_mem_nil
  | successor, step :: rest, s, hs, hfork => by
      rw [layoutList] at hs ⊢
      rw [placesInList]
      rcases List.mem_append.mp hs with hs | hs
      · refine (layout_forked _ step s hs hfork).mono (List.sublist_append_left _ _)
          List.infix_append_left fun next hnext => ?_
        cases rest with
        | nil => exact .inl hnext
        | cons first more =>
          obtain rfl : first = next := Option.some.inj hnext
          refine .inr ⟨more.head?.or successor, ?_⟩
          rw [layoutList]
          exact List.infix_append_left.trans List.infix_append_right
      · exact (layoutList_forked successor rest s hs hfork).mono (List.sublist_append_right _ _)
          List.infix_append_right fun _ => .inl

theorem layoutElse_forked : ∀ (successor : Option Step) (name : String)
    (whenFalse : Option (List Step)), ∀ s ∈ layoutElse mergeType successor name whenFalse,
      s.IsFork → Forked mergeType successor (placesInElse successor whenFalse)
        (layoutElse mergeType successor name whenFalse) s
  | successor, _, some steps, s, hs, hfork => layoutList_forked successor steps s hs hfork
  | some _, _, none, _, hs, _ => absurd hs List.not_mem_nil
  | none, _, none, s, hs, hfork => by
      rw [List.mem_singleton.mp hs] at hfork
      exact hfork.elim

end

/-! ## What states aim at -/

/-- The target is the name of a step among the places, or was made up for the place that the state
is laid out for. -/
inductive Aim (mergeType : String) (places : List Place) (s : State) (target : String) : Prop where
  | authored (p : Place) (mem : p ∈ places) (name : p.step.name = target)
  | madeUp (p : Place) (mem : p ∈ places) (name : target ∈ p.madeUp mergeType)
      (state : s = p.state mergeType)

theorem Aim.mono {places places' : List Place} {s : State} {target : String}
    (h : Aim mergeType places s target) (hsub : places.Sublist places') :
    Aim mergeType places' s target := by
  cases h with
  | authored p mem name => exact .authored p (hsub.subset mem) name
  | madeUp p mem name state => exact .madeUp p (hsub.subset mem) name state

theorem targets_of_handOver {successor : Option Step} {s : State} (hchoice : s.choiceTargets = [])
    (h : s.transition? = some (handOver successor)) {target : String}
    (htarget : target ∈ s.targets) :
    successor.map name = some target := by
  rw [State.targets, hchoice, h] at htarget
  cases successor with
  | none => cases htarget
  | some next => rw [List.mem_singleton.mp htarget]; rfl

theorem joined_aim (name : String) (lists : List (List Step)) (fields : List (String × Json))
    (successor : Option Step) :
    ∀ s ∈ joined mergeType name (layoutBranches mergeType lists) fields successor,
      ∀ target ∈ s.targets, successor.map Step.name = some target ∨
        Aim mergeType [⟨.parallel name lists fields, successor⟩] s target := by
  intro s hs target htarget
  rw [joined] at hs
  split at hs
  · rename_i next hfilter
    obtain ⟨rfl, -⟩ := Option.filter_eq_some_iff.mp hfilter
    rw [List.mem_singleton.mp hs] at htarget
    rw [List.mem_singleton.mp htarget]
    exact .inl rfl
  · rename_i hfilter
    rcases List.mem_cons.mp hs with rfl | hs
    · rw [List.mem_singleton.mp htarget]
      refine .inr (.madeUp _ List.mem_cons_self ?_ ?_)
      · rw [madeUp_parallel, hfilter]
        exact List.mem_cons_self
      · rw [Place.state, hfilter, Option.elim_none]
    · rw [List.mem_singleton.mp hs] at htarget
      exact .inl (targets_of_handOver rfl rfl htarget)

/-- A choice aims at the first steps of its lists, at its successor or at the end made up for it. -/
theorem choice_aim {successor : Option Step} {name : String} {condition : List (String × Json)}
    {whenTrue : List Step} {whenFalse : Option (List Step)}
    (h : Place.gaps ⟨.choice name condition whenTrue whenFalse, successor⟩ = []) :
    ∀ target ∈ (Place.state mergeType ⟨.choice name condition whenTrue whenFalse,
        successor⟩).targets, successor.map Step.name = some target ∨
      Aim mergeType (places successor (.choice name condition whenTrue whenFalse))
        (Place.state mergeType ⟨.choice name condition whenTrue whenFalse, successor⟩) target := by
  intro target htarget
  rw [places]
  rcases mem_targets_choice htarget with rfl | rfl
  · obtain ⟨p, hp, hname⟩ := exists_place_startName successor (Place.whenTrue_ne_nil h)
    exact .inr (.authored p (List.mem_cons_of_mem _ (List.mem_append_left _ hp)) hname)
  · cases whenFalse with
    | some steps =>
      obtain ⟨p, hp, hname⟩ := exists_place_startName successor (Place.whenFalse_ne_nil h)
      exact .inr (.authored p (List.mem_cons_of_mem _ (List.mem_append_right _ hp)) hname)
    | none =>
      cases successor with
      | some next => exact .inl rfl
      | none => exact .inr (.madeUp _ List.mem_cons_self List.mem_cons_self rfl)

mutual

theorem layout_aim : ∀ {successor : Option Step} {step : Step},
    gapsAt (places successor step) = [] → ∀ s ∈ layout mergeType successor step,
      ∀ target ∈ s.targets, successor.map name = some target ∨
        Aim mergeType (places successor step) s target
  | successor, .task name fields, _, s, hs, target, htarget => by
      rw [layout] at hs
      rw [List.mem_singleton.mp hs] at htarget
      exact .inl (targets_of_handOver rfl rfl htarget)
  | successor, .choice name condition whenTrue whenFalse, h, s, hs, target, htarget => by
      rw [places, gapsAt_cons, List.append_eq_nil_iff, gapsAt_append, List.append_eq_nil_iff] at h
      obtain ⟨hgaps, htrue, hfalse⟩ := h
      rw [layout] at hs
      rcases List.mem_cons.mp hs with rfl | hs
      · exact choice_aim hgaps target htarget
      · rw [places]
        rcases List.mem_append.mp hs with hs | hs
        · exact (layoutList_aim htrue s hs target htarget).imp_right fun haim =>
            haim.mono (.cons _ (List.sublist_append_left _ _))
        · exact (layoutElse_aim hfalse s hs target htarget).imp_right fun haim =>
            haim.mono (.cons _ (List.sublist_append_right _ _))
  | successor, .parallel name lists fields, _, s, hs, target, htarget => by
      rw [layout] at hs
      rw [places]
      refine (joined_aim name lists fields successor s hs target htarget).imp_right fun haim => ?_
      exact haim.mono (List.singleton_sublist.mpr List.mem_cons_self)

theorem layoutList_aim : ∀ {successor : Option Step} {steps : List Step},
    gapsAt (placesInList successor steps) = [] → ∀ s ∈ layoutList mergeType successor steps,
      ∀ target ∈ s.targets, successor.map name = some target ∨
        Aim mergeType (placesInList successor steps) s target
  | _, [], _, _, hs, _, _ => absurd hs List.not_mem_nil
  | successor, step :: rest, h, s, hs, target, htarget => by
      rw [placesInList, gapsAt_append, List.append_eq_nil_iff] at h
      rw [layoutList] at hs
      rw [placesInList]
      rcases List.mem_append.mp hs with hs | hs
      · rcases layout_aim h.1 s hs target htarget with hout | haim
        · cases rest with
          | nil => exact .inl hout
          | cons first more =>
            obtain rfl : first.name = target := Option.some.inj hout
            obtain ⟨p, hp, hname⟩ := exists_place_startName successor (List.cons_ne_nil first more)
            exact .inr (.authored p (List.mem_append_right _ hp) hname)
        · exact .inr (haim.mono (List.sublist_append_left _ _))
      · exact (layoutList_aim h.2 s hs target htarget).imp_right fun haim =>
          haim.mono (List.sublist_append_right _ _)

theorem layoutElse_aim : ∀ {successor : Option Step} {name : String}
    {whenFalse : Option (List Step)}, gapsAt (placesInElse successor whenFalse) = [] →
    ∀ s ∈ layoutElse mergeType successor name whenFalse,
      ∀ target ∈ s.targets, successor.map Step.name = some target ∨
        Aim mergeType (placesInElse successor whenFalse) s target
  | _, _, some _, h, s, hs, target, htarget => layoutList_aim h s hs target htarget
  | some _, _, none, _, _, hs, _, _ => absurd hs List.not_mem_nil
  | none, _, none, _, s, hs, target, htarget => by
      rw [List.mem_singleton.mp hs] at htarget
      exact absurd htarget List.not_mem_nil

end

/-! ## One join each -/

theorem joined_cases (mergeType name : String) (scopes : List (Scope State))
    (fields : List (String × Json)) (successor : Option Step) :
    (∃ next, successor.filter (isJoin mergeType) = some next ∧
        joined mergeType name scopes fields successor =
          [.parallel name scopes fields (some (.next next.name))]) ∨
      successor.filter (isJoin mergeType) = none ∧
        joined mergeType name scopes fields successor =
          [.parallel name scopes fields (some (.next (name ++ "-Merge"))),
            .merge (name ++ "-Merge") mergeType (some (handOver successor))] := by
  rw [joined]
  cases h : successor.filter (isJoin mergeType) with
  | some next => exact .inl ⟨next, rfl, rfl⟩
  | none => exact .inr ⟨rfl, rfl⟩

/-- A merge state was made up for a place of its scope, and stands right behind the state of it. -/
theorem exists_owner {steps : List Step} {name type : String} {t : Option Transition}
    (h : .merge name type t ∈ layoutList mergeType none steps) :
    ∃ owner lists fields successor,
      (⟨.parallel owner lists fields, successor⟩ : Place) ∈ placesInList none steps ∧
      successor.filter (isJoin mergeType) = none ∧ name = owner ++ "-Merge" ∧ type = mergeType ∧
      [Place.state mergeType ⟨.parallel owner lists fields, successor⟩, .merge name type t] <:+:
        layoutList mergeType none steps := by
  obtain ⟨owner, lists, fields, successor, place, mem, together, -⟩ :=
    layoutList_forked none steps _ h trivial
  rcases joined_cases mergeType owner (layoutBranches mergeType lists) fields successor with
    ⟨next, _, heq⟩ | ⟨hfilter, heq⟩
  · rw [heq] at mem
    cases List.mem_singleton.mp mem
  · rw [heq] at mem together
    rcases List.mem_cons.mp mem with hpar | hmerge
    · cases hpar
    · cases List.mem_singleton.mp hmerge
      refine ⟨owner, lists, fields, successor, place, hfilter, rfl, rfl, ?_⟩
      rw [Place.state, hfilter]
      exact together

/-- Among distinct names, only the state of a place aims at the name made up for the place. -/
theorem eq_state_of_target {places : List Place} (h : Sound mergeType places) {p : Place}
    (hp : p ∈ places) {target : String} (hmade : target ∈ p.madeUp mergeType) {steps : List Step}
    (hsub : (placesInList none steps).Sublist places) :
    ∀ s ∈ layoutList mergeType none steps, target ∈ s.targets → s = p.state mergeType := by
  intro s hs htarget
  have hown : target ∈ p.names mergeType := List.mem_cons_of_mem _ hmade
  rcases layoutList_aim (h.sublist hsub).gaps s hs target htarget with hout | haim
  · cases hout
  · cases haim with
    | authored q hq hname =>
      have hqn : target ∈ q.names mergeType := hname ▸ List.mem_cons_self
      obtain rfl := eq_of_mem_names h.names (hsub.subset hq) hp hqn hown
      have hnd : (q.names mergeType).Nodup := (List.nodup_flatMap.mp h.names).1 q hp
      exact absurd (hname ▸ hmade) (List.nodup_cons.mp hnd).1
    | madeUp q hq hname hstate =>
      obtain rfl := eq_of_mem_names h.names (hsub.subset hq) hp (List.mem_cons_of_mem _ hname) hown
      exact hstate

end Step

/-- Where names differ, what holds of one state only picks this state out. -/
theorem StateGraph.filter_eq_singleton {g : StateGraph} (hnd : g.names.Nodup) {s : State}
    (hs : s ∈ g.states) {p : State → Bool} (hp : p s = true)
    (honly : ∀ s' ∈ g.states, p s' = true → s' = s) : g.states.filter p = [s] := by
  have hall : g.states.filter p = List.replicate (g.states.filter p).length s :=
    List.eq_replicate_of_mem fun s' hs' =>
      honly s' (List.mem_of_mem_filter hs') (List.mem_filter.mp hs').2
  have hle : (g.states.filter p).length ≤ 1 := by
    have hfiltered := (List.Nodup.of_map State.name hnd).filter p
    rw [hall] at hfiltered
    exact List.nodup_replicate.mp hfiltered
  have hpos : 0 < (g.states.filter p).length :=
    List.length_pos_of_mem (List.mem_filter.mpr ⟨hs, hp⟩)
  have hlen : (g.states.filter p).length = 1 := by omega
  rw [hall, hlen]
  rfl

/-- How a parallel state is joined that was laid out for a step with the given successor, in its
scope and in the whole graph. -/
structure HasJoin (mergeType : String) (g scope : StateGraph) (successor : Option Step)
    (name : String) (branches : List (Scope State)) (fields : List (String × Json))
    (t : Option Transition) : Prop where
  /-- Control goes on to a state of the scope that has the merge type. -/
  join : ∃ m ∈ scope.states, m.type? = some mergeType ∧ t = some (.next m.name)
  /-- A task of the merge type behind it is the join, and no merge state is made up for it. -/
  authored : ∀ next taskFields, successor = some (.task next taskFields) →
    (Step.task next taskFields).type? = some mergeType →
      t = some (.next next) ∧ (∃ t', .task next taskFields t' ∈ scope.states) ∧
        ∀ inner ∈ g.scopes, ∀ type t', .merge (name ++ "-Merge") type t' ∉ inner.states
  /-- Otherwise a merge state is made up right behind it, which hands over to the successor. -/
  madeUp : (∀ next taskFields, successor = some (.task next taskFields) →
    (Step.task next taskFields).type? ≠ some mergeType) →
      t = some (.next (name ++ "-Merge")) ∧
        [.parallel name branches fields t,
          .merge (name ++ "-Merge") mergeType (some (Step.handOver successor))] <:+: scope.states

namespace HasJoin

variable {mergeType : String} {g scope : StateGraph} {name : String}
  {branches : List (Scope State)} {fields : List (String × Json)}

theorem of_task {taskName : String} {taskFields : List (String × Json)} {t : Option Transition}
    (htype : (Step.task taskName taskFields).type? = some mergeType)
    (htask : .task taskName taskFields t ∈ scope.states)
    (hnone : ∀ inner ∈ g.scopes, ∀ type t', .merge (name ++ "-Merge") type t' ∉ inner.states) :
    HasJoin mergeType g scope (some (.task taskName taskFields)) name branches fields
      (some (.next taskName)) where
  join := ⟨_, htask, htype, rfl⟩
  authored := by
    rintro _ _ ⟨⟩ _
    exact ⟨rfl, ⟨t, htask⟩, hnone⟩
  madeUp hother := absurd htype (hother _ _ rfl)

theorem of_merge {successor : Option Step}
    (hfilter : successor.filter (Step.isJoin mergeType) = none)
    (htogether : [.parallel name branches fields (some (.next (name ++ "-Merge"))),
      .merge (name ++ "-Merge") mergeType (some (Step.handOver successor))] <:+: scope.states) :
    HasJoin mergeType g scope successor name branches fields
      (some (.next (name ++ "-Merge"))) where
  join := by
    have hmerge := htogether.subset (List.mem_cons_of_mem _ List.mem_cons_self)
    exact ⟨_, hmerge, rfl, rfl⟩
  authored := by
    rintro next taskFields rfl htype
    have hjoin := Step.isJoin_iff.mpr ⟨next, taskFields, rfl, htype⟩
    exact absurd hjoin (Option.filter_eq_none_iff.mp hfilter _ rfl)
  madeUp _ := ⟨rfl, htogether⟩

end HasJoin

/-- The parallel states of a scope of a compiled graph and its merge states, one to one. -/
structure JoinsOnce (mergeType : String) (plan : Plan) (g scope : StateGraph) : Prop where
  /-- A parallel state comes of the one step of its name and has the join that the successor of this
  step asks for. -/
  parallels : ∀ name branches fields t, .parallel name branches fields t ∈ scope.states →
    ∃ lists successor, ⟨.parallel name lists fields, successor⟩ ∈ plan.places ∧
      (∀ p ∈ plan.places, p.step.name = name → p = ⟨.parallel name lists fields, successor⟩) ∧
      HasJoin mergeType g scope successor name branches fields t
  /-- A merge state stands right behind the parallel state that it was made up for, which aims at it
  as the only state of the scope and of the graph. -/
  merges : ∀ name type t, .merge name type t ∈ scope.states →
    ∃ owner branches fields, name = owner ++ "-Merge" ∧ type = mergeType ∧
      [.parallel owner branches fields (some (.next name)), .merge name type t] <:+: scope.states ∧
      scope.states.filter (fun s => s.targets.contains name) =
        [.parallel owner branches fields (some (.next name))] ∧
      ∀ inner ∈ g.scopes, ∀ s ∈ inner.states, name ∈ s.targets →
        s = .parallel owner branches fields (some (.next name))

namespace Plan

variable {mergeType : String} {plan : Plan}

/-- A place whose successor is the join has no merge state, in whatever scope. -/
theorem not_mem_of_isJoin (h : Sound mergeType plan.places) {name : String}
    {lists : List (List Step)} {fields : List (String × Json)} {successor : Option Step}
    (hplace : ⟨.parallel name lists fields, successor⟩ ∈ plan.places)
    (hjoin : successor.filter (Step.isJoin mergeType) ≠ none) :
    ∀ inner ∈ (plan.layout mergeType).scopes, ∀ type t,
      .merge (name ++ "-Merge") type t ∉ inner.states := by
  intro inner hinner type t hmerge
  obtain ⟨steps, -, hsub, rfl⟩ :=
    Step.exists_branch_of_mem_scopes plan.nonempty h.gaps inner hinner
  obtain ⟨owner, lists', fields', successor', hplace', hnone, hname, -, -⟩ :=
    Step.exists_owner hmerge
  obtain rfl := (String.append_left_inj _).mp hname
  have heq := Step.eq_of_mem_names h.names hplace (hsub.subset hplace') List.mem_cons_self
    List.mem_cons_self
  injection heq with _ hsuccessor
  exact hjoin (hsuccessor ▸ hnone)

theorem hasJoin_of_mem (h : Sound mergeType plan.places) {steps : List Step}
    (hsub : (Step.placesInList none steps).Sublist plan.places) {name : String}
    {branches : List (Scope State)} {fields : List (String × Json)} {t : Option Transition}
    (hs : .parallel name branches fields t ∈ Step.layoutList mergeType none steps) :
    ∃ lists successor, ⟨.parallel name lists fields, successor⟩ ∈ plan.places ∧
      HasJoin mergeType (plan.layout mergeType) (Step.layoutScope mergeType steps) successor name
        branches fields t := by
  obtain ⟨owner, lists, fields', successor, place, mem, together, beside⟩ :=
    Step.layoutList_forked none steps _ hs trivial
  rcases Step.joined_cases mergeType owner (Step.layoutBranches mergeType lists) fields' successor
    with ⟨next, hfilter, heq⟩ | ⟨hfilter, heq⟩
  · rw [heq] at mem
    cases List.mem_singleton.mp mem
    have hnone := not_mem_of_isJoin h (hsub.subset place) (hfilter ▸ Option.some_ne_none next)
    obtain ⟨rfl, hjoin⟩ := Option.filter_eq_some_iff.mp hfilter
    obtain ⟨taskName, taskFields, rfl, htype⟩ := Step.isJoin_iff.mp hjoin
    rcases beside _ rfl with hout | ⟨beyond, hbeyond⟩
    · cases hout
    · have htask := hbeyond.subset List.mem_cons_self
      exact ⟨lists, _, hsub.subset place, .of_task htype htask hnone⟩
  · rw [heq] at mem together
    rcases List.mem_cons.mp mem with hpar | hmerge
    · cases hpar
      exact ⟨lists, successor, hsub.subset place, .of_merge hfilter together⟩
    · cases List.mem_singleton.mp hmerge

/-- The state that a merge state was made up for is the only one of the graph that aims at it. -/
theorem exists_only_source (h : Sound mergeType plan.places) {steps : List Step}
    (hsub : (Step.placesInList none steps).Sublist plan.places) {name type : String}
    {t : Option Transition} (hs : .merge name type t ∈ Step.layoutList mergeType none steps) :
    ∃ owner branches fields, name = owner ++ "-Merge" ∧ type = mergeType ∧
      [.parallel owner branches fields (some (.next name)), .merge name type t] <:+:
        Step.layoutList mergeType none steps ∧
      ∀ inner ∈ (plan.layout mergeType).scopes, ∀ s ∈ inner.states, name ∈ s.targets →
        s = .parallel owner branches fields (some (.next name)) := by
  obtain ⟨owner, lists, fields, successor, hplace, hfilter, rfl, htype, together⟩ :=
    Step.exists_owner hs
  have hmade : owner ++ "-Merge" ∈
      Place.madeUp mergeType ⟨.parallel owner lists fields, successor⟩ := by
    rw [Step.madeUp_parallel, hfilter]
    exact List.mem_cons_self
  have hstate : Place.state mergeType ⟨.parallel owner lists fields, successor⟩ =
      .parallel owner (Step.layoutBranches mergeType lists) fields
        (some (.next (owner ++ "-Merge"))) := by
    rw [Place.state, hfilter, Option.elim_none]
  rw [hstate] at together
  refine ⟨owner, _, fields, rfl, htype, together, fun inner hinner => ?_⟩
  obtain ⟨steps', -, hsub', rfl⟩ :=
    Step.exists_branch_of_mem_scopes plan.nonempty h.gaps inner hinner
  rw [← hstate]
  exact Step.eq_state_of_target h (hsub.subset hplace) hmade hsub'

/-- Every step of the plan has its state in some scope. -/
theorem exists_scope_of_place {p : Place} (hp : p ∈ plan.places) :
    ∃ scope ∈ (plan.layout mergeType).scopes, p.state mergeType ∈ scope.states := by
  rcases Step.layoutList_occurs none plan.steps p hp with hs | ⟨g, hg, hs⟩
  · exact ⟨_, List.mem_cons_self, hs⟩
  · exact ⟨g, List.mem_cons_of_mem _ hg, hs⟩

/-- In a compiled graph, every step of the plan has its state in some scope, and in every scope each
parallel state is joined by one state and each merge state joins one parallel state. -/
theorem joins_once {g : StateGraph} (h : plan.compile mergeType = .ok g) :
    (∀ p ∈ plan.places, ∃ scope ∈ g.scopes, p.state mergeType ∈ scope.states) ∧
      ∀ scope ∈ g.scopes, JoinsOnce mergeType plan g scope := by
  rw [compile_eq_link] at h
  obtain ⟨rfl, hgaps, hnames⟩ := link_ok h
  have hsound : Sound mergeType plan.places := ⟨hgaps, hnames⟩
  refine ⟨fun p hp => exists_scope_of_place hp, fun scope hscope => ?_⟩
  obtain ⟨steps, hne, hsub, rfl⟩ :=
    Step.exists_branch_of_mem_scopes plan.nonempty hgaps scope hscope
  refine ⟨fun name branches fields t hs => ?_, fun name type t hs => ?_⟩
  · obtain ⟨lists, successor, hplace, hjoin⟩ := hasJoin_of_mem hsound hsub hs
    refine ⟨lists, successor, hplace, fun p hp hname => ?_, hjoin⟩
    exact Step.eq_of_mem_names hnames hp hplace (hname ▸ List.mem_cons_self) List.mem_cons_self
  · obtain ⟨owner, branches, fields, hname, htype, together, honly⟩ :=
      exists_only_source hsound hsub hs
    refine ⟨owner, branches, fields, hname, htype, together, ?_, honly⟩
    refine StateGraph.filter_eq_singleton (Step.layoutScope_names_nodup (hsound.sublist hsub))
      (together.subset List.mem_cons_self) (List.contains_iff_mem.mpr List.mem_cons_self)
      fun s hs htarget => ?_
    exact honly _ hscope s hs (List.contains_iff_mem.mp htarget)

/-- A parallel step that inherits its join from the choice around it, one inside it without a
successor, and one in front of a task of another type. -/
def parted : Plan where
  steps := [
    .choice "C" [] [.parallel "P" [[.task "A" []], [.parallel "Q" [[.task "B" []]] []]] []] none,
    .ofType "J" "Join",
    .parallel "R" [[.task "D" []]] [],
    .ofType "E" "Runner"]
  nonempty := List.cons_ne_nil _ _

theorem joins_once_parted :
    (parted.layout "Join").scopes.map StateGraph.names =
        [["C", "P", "J", "R", "R-Merge", "E"], ["A"], ["Q", "Q-Merge"], ["B"], ["D"]] ∧
      parted.compile "Join" = .ok (parted.layout "Join") ∧
      (∀ p ∈ parted.places, ∃ scope ∈ (parted.layout "Join").scopes,
        p.state "Join" ∈ scope.states) ∧
      ∀ scope ∈ (parted.layout "Join").scopes,
        JoinsOnce "Join" parted (parted.layout "Join") scope := by
  have hcompile : parted.compile "Join" = .ok (parted.layout "Join") := by rfl
  exact ⟨by decide, hcompile, joins_once hcompile⟩

end Plan

end Rollout
