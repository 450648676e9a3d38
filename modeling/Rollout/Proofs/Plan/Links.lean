import Mathlib.Data.List.Flatten
import Rollout.Proofs.Graph.Search
import Rollout.Proofs.Plan.Compiling

/-!
# The links of a layout

The layout of steps without gaps is linked soundly.  Three facts are proved along the mutual
recursion of the layout, each for a list with any successor:

* `layoutList_forward`: every target is a later state of the list or the successor;
* `layoutList_reaches`: from the first state control can come to every state of the list and to the
  successor;
* `mem_scopes_layoutList`: the graphs inside are layouts of branches, which are lists of steps
  without gaps themselves, so nothing more has to be shown about them.

The names of a layout are the names of its places up to their order (`allNames_layoutList`).
Hence the checks behind the compiler find nothing (`Plan.checkLinks_layout`), and
`Plan.compile_acceptance` tells exactly which plans compile.
-/

namespace Rollout

/-! ## Places without faults -/

/-- Places without gaps whose names all differ. -/
structure Sound (mergeType : String) (places : List Place) : Prop where
  gaps : Step.gapsAt places = []
  names : (Step.namesAt mergeType places).Nodup

namespace Sound

variable {mergeType : String} {p : Place} {ps qs : List Place}

/-- What has no faults as a whole has none in a part. -/
theorem sublist (h : Sound mergeType qs) (hsub : ps.Sublist qs) : Sound mergeType ps where
  gaps := List.sublist_nil.mp (h.gaps ▸ hsub.flatMap Place.gaps)
  names := h.names.sublist (hsub.flatMap (Place.names mergeType))

theorem left (h : Sound mergeType (ps ++ qs)) : Sound mergeType ps :=
  h.sublist (List.sublist_append_left _ _)

theorem right (h : Sound mergeType (ps ++ qs)) : Sound mergeType qs :=
  h.sublist (List.sublist_append_right _ _)

theorem tail (h : Sound mergeType (p :: ps)) : Sound mergeType ps :=
  h.sublist (List.sublist_cons_self _ _)

theorem head (h : Sound mergeType (p :: ps)) : p.gaps = [] := by
  have hg := h.gaps
  rw [Step.gapsAt_cons, List.append_eq_nil_iff] at hg
  exact hg.1

end Sound

namespace Place

theorem whenTrue_ne_nil {name : String} {condition : List (String × Json)} {whenTrue : List Step}
    {whenFalse : Option (List Step)} {successor : Option Step}
    (h : gaps ⟨.choice name condition whenTrue whenFalse, successor⟩ = []) : whenTrue ≠ [] := by
  rintro rfl
  simp [gaps] at h

theorem whenFalse_ne_nil {name : String} {condition : List (String × Json)}
    {whenTrue steps : List Step} {successor : Option Step}
    (h : gaps ⟨.choice name condition whenTrue (some steps), successor⟩ = []) : steps ≠ [] := by
  rintro rfl
  simp [gaps] at h

theorem branch_ne_nil {name : String} {branches : List (List Step)} {fields : List (String × Json)}
    {successor : Option Step} (h : gaps ⟨.parallel name branches fields, successor⟩ = []) :
    ∀ branch ∈ branches, branch ≠ [] := by
  rintro branch hmem rfl
  have hany : branches.any List.isEmpty = true := List.any_eq_true.mpr ⟨[], hmem, rfl⟩
  simp [gaps, hany] at h

end Place

namespace Step

variable {mergeType : String}

/-! ## Starts -/

theorem name_mem_layout (mergeType : String) (successor : Option Step) (step : Step) :
    step.name ∈ (layout mergeType successor step).map State.name := by
  obtain ⟨rest, heq⟩ := layout_eq_cons mergeType successor step
  rw [heq, List.map_cons, Place.name_state]
  exact List.mem_cons_self

theorem startName_mem_layoutList {successor : Option Step} {steps : List Step} (h : steps ≠ []) :
    startName steps ∈ (layoutList mergeType successor steps).map State.name := by
  cases steps with
  | nil => exact absurd rfl h
  | cons first rest =>
    rw [layoutList, List.map_append]
    exact List.mem_append_left _ (name_mem_layout _ _ first)

/-- The name that a choice goes to otherwise belongs to its second list or is the successor. -/
theorem elseName_mem_layoutElse (mergeType : String) {successor : Option Step} {name : String}
    {condition : List (String × Json)} {whenTrue : List Step} {whenFalse : Option (List Step)}
    (h : Place.gaps ⟨.choice name condition whenTrue whenFalse, successor⟩ = []) :
    elseName successor name whenFalse ∈
        (layoutElse mergeType successor name whenFalse).map State.name ∨
      successor.map Step.name = some (elseName successor name whenFalse) := by
  cases whenFalse with
  | some steps => exact .inl (startName_mem_layoutList (Place.whenFalse_ne_nil h))
  | none =>
    cases successor with
    | some next => exact .inr rfl
    | none => exact .inl List.mem_cons_self

/-! ## Links lead on -/

theorem mem_targets_choice {name start default target : String} {condition : List (String × Json)}
    (h : target ∈ (State.choice name [⟨condition, start⟩] default none).targets) :
    target = start ∨ target = default := by
  simpa [State.targets, State.choiceTargets, State.transition?] using h

theorem forward_handOver {successor : Option Step} {s : State}
    (h : s.targets = (match handOver successor with | .next target => [target] | .stop => [])) :
    State.Forward (successor.map name) [s] := by
  refine ⟨fun target htarget => .inr ?_, trivial⟩
  rw [h] at htarget
  cases successor with
  | none => cases htarget
  | some next => rw [List.mem_singleton.mp htarget]; rfl

theorem joined_forward (name : String) (scopes : List (Scope State)) (fields : List (String × Json))
    (successor : Option Step) :
    State.Forward (successor.map Step.name) (joined mergeType name scopes fields successor) := by
  rw [joined]
  split
  · rename_i next hs
    obtain ⟨rfl, -⟩ := Option.filter_eq_some_iff.mp hs
    refine ⟨fun target htarget => .inr ?_, trivial⟩
    rw [List.mem_singleton.mp htarget]
    rfl
  · refine ⟨fun target htarget => .inl ?_, forward_handOver ?_⟩
    · rw [List.mem_singleton.mp htarget]
      exact List.mem_cons_self
    · cases successor with
      | none => rfl
      | some next => rfl

mutual

theorem layout_forward : ∀ {successor : Option Step} {step : Step},
    gapsAt (places successor step) = [] →
    State.Forward (successor.map name) (layout mergeType successor step)
  | successor, .task _ _, _ => by
      rw [layout]
      refine forward_handOver ?_
      cases successor with
      | none => rfl
      | some next => rfl
  | successor, .choice name condition whenTrue whenFalse, h => by
      rw [places, gapsAt_cons, List.append_eq_nil_iff, gapsAt_append, List.append_eq_nil_iff] at h
      obtain ⟨hgaps, htrue, hfalse⟩ := h
      rw [layout]
      refine ⟨fun target htarget => ?_, ?_⟩
      · rw [List.map_append, List.mem_append]
        rcases mem_targets_choice htarget with rfl | rfl
        · exact .inl (.inl (startName_mem_layoutList (Place.whenTrue_ne_nil hgaps)))
        · rcases elseName_mem_layoutElse mergeType hgaps with hin | hout
          · exact .inl (.inr hin)
          · exact .inr hout
      · exact (layoutList_forward htrue).append (layoutElse_forward hfalse) fun _ => .inr
  | successor, .parallel name branches fields, _ => by
      rw [layout]
      exact joined_forward name _ fields successor

theorem layoutList_forward : ∀ {successor : Option Step} {steps : List Step},
    gapsAt (placesInList successor steps) = [] →
    State.Forward (successor.map name) (layoutList mergeType successor steps)
  | _, [], _ => trivial
  | successor, step :: rest, h => by
      rw [placesInList, gapsAt_append, List.append_eq_nil_iff] at h
      rw [layoutList]
      refine (layout_forward h.1).append (layoutList_forward h.2) fun target htarget => ?_
      cases rest with
      | nil => exact .inr htarget
      | cons next more =>
        obtain rfl : next.name = target := Option.some.inj htarget
        exact .inl (startName_mem_layoutList (List.cons_ne_nil next more))

theorem layoutElse_forward : ∀ {successor : Option Step} {name : String}
    {whenFalse : Option (List Step)}, gapsAt (placesInElse successor whenFalse) = [] →
    State.Forward (successor.map Step.name) (layoutElse mergeType successor name whenFalse)
  | _, _, some _, h => layoutList_forward h
  | some _, _, none, _ => trivial
  | none, _, none, _ => ⟨fun target htarget => by simp [State.targets, State.choiceTargets,
      State.transition?] at htarget, trivial⟩

end

/-! ## Everything can be reached -/

/-- Control can come to all of the states and to the successor. -/
structure Covered (g : StateGraph) (successor : Option Step) (states : List State) : Prop where
  states : ∀ s ∈ states, g.Reaches s.name
  successor : ∀ next, successor = some next → g.Reaches next.name

theorem Covered.append {g : StateGraph} {successor successor' : Option Step} {xs ys : List State}
    (hx : Covered g successor xs) (hy : Covered g successor' ys) :
    Covered g successor' (xs ++ ys) := by
  refine ⟨fun s hs => ?_, hy.successor⟩
  rcases List.mem_append.mp hs with hs | hs
  · exact hx.states s hs
  · exact hy.states s hs

theorem covered_handOver {g : StateGraph} {successor : Option Step} {s : State}
    (h : s.transition? = some (handOver successor)) (hs : s ∈ g.states) (hr : g.Reaches s.name) :
    Covered g successor [s] := by
  refine ⟨fun s' hs' => List.mem_singleton.mp hs' ▸ hr, fun next hnext => ?_⟩
  subst hnext
  refine hr.step hs (List.mem_append_right _ ?_)
  rw [h]
  exact List.mem_singleton.mpr rfl

theorem reaches_of_choice {g : StateGraph} {name start default : String}
    {condition : List (String × Json)} (hr : g.Reaches name)
    (hin : .choice name [⟨condition, start⟩] default none ∈ g.states) :
    g.Reaches start ∧ g.Reaches default :=
  ⟨.step (s := .choice name _ default none) hr hin List.mem_cons_self,
    .step (s := .choice name _ default none) hr hin (List.mem_cons_of_mem _ List.mem_cons_self)⟩

theorem joined_covered {g : StateGraph} {name : String} {scopes : List (Scope State)}
    {fields : List (String × Json)} {successor : Option Step}
    (hin : ∀ s ∈ joined mergeType name scopes fields successor, s ∈ g.states)
    (hr : g.Reaches name) :
    Covered g successor (joined mergeType name scopes fields successor) := by
  rw [joined] at hin ⊢
  split at hin
  · rename_i next hs
    obtain ⟨rfl, -⟩ := Option.filter_eq_some_iff.mp hs
    exact covered_handOver rfl (hin _ List.mem_cons_self) hr
  · have hmerge : g.Reaches (name ++ "-Merge") :=
      .step (s := .parallel name scopes fields (some (.next (name ++ "-Merge")))) hr
        (hin _ List.mem_cons_self) List.mem_cons_self
    have hlast : Covered g successor
        [.merge (name ++ "-Merge") mergeType (some (handOver successor))] :=
      covered_handOver rfl (hin _ (List.mem_cons_of_mem _ List.mem_cons_self)) hmerge
    refine ⟨fun s hs => ?_, hlast.successor⟩
    rcases List.mem_cons.mp hs with rfl | hs
    · exact hr
    · exact hlast.states s hs

mutual

theorem layout_covered {g : StateGraph} : ∀ {successor : Option Step} {step : Step},
    gapsAt (places successor step) = [] →
    (∀ s ∈ layout mergeType successor step, s ∈ g.states) → g.Reaches step.name →
    Covered g successor (layout mergeType successor step)
  | _, .task _ _, _, hin, hr => by
      rw [layout] at hin ⊢
      exact covered_handOver rfl (hin _ List.mem_cons_self) hr
  | successor, .choice name condition whenTrue whenFalse, h, hin, hr => by
      rw [places, gapsAt_cons, List.append_eq_nil_iff, gapsAt_append, List.append_eq_nil_iff] at h
      obtain ⟨hgaps, htrue, hfalse⟩ := h
      rw [layout] at hin ⊢
      obtain ⟨hstart, helse⟩ := reaches_of_choice hr (hin _ List.mem_cons_self)
      have hthen := layoutList_covered (Place.whenTrue_ne_nil hgaps) htrue
        (fun s hs => hin s (List.mem_cons_of_mem _ (List.mem_append_left _ hs))) hstart
      have hboth := hthen.append (layoutElse_covered hgaps hfalse
        (fun s hs => hin s (List.mem_cons_of_mem _ (List.mem_append_right _ hs))) helse)
      refine ⟨fun s hs => ?_, hboth.successor⟩
      rcases List.mem_cons.mp hs with rfl | hs
      · exact hr
      · exact hboth.states s hs
  | _, .parallel name branches fields, _, hin, hr => by
      rw [layout] at hin ⊢
      exact joined_covered hin hr

theorem layoutList_covered {g : StateGraph} : ∀ {successor : Option Step} {steps : List Step},
    steps ≠ [] → gapsAt (placesInList successor steps) = [] →
    (∀ s ∈ layoutList mergeType successor steps, s ∈ g.states) → g.Reaches (startName steps) →
    Covered g successor (layoutList mergeType successor steps)
  | _, [], hne, _, _, _ => absurd rfl hne
  | successor, step :: rest, _, h, hin, hr => by
      rw [placesInList, gapsAt_append, List.append_eq_nil_iff] at h
      rw [layoutList] at hin ⊢
      have hstep := layout_covered h.1 (fun s hs => hin s (List.mem_append_left _ hs)) hr
      cases rest with
      | nil =>
        rw [layoutList, List.append_nil]
        exact hstep
      | cons next more =>
        exact hstep.append (layoutList_covered (List.cons_ne_nil next more) h.2
          (fun s hs => hin s (List.mem_append_right _ hs)) (hstep.successor next rfl))

theorem layoutElse_covered {g : StateGraph} : ∀ {successor : Option Step} {name : String}
    {condition : List (String × Json)} {whenTrue : List Step} {whenFalse : Option (List Step)},
    Place.gaps ⟨.choice name condition whenTrue whenFalse, successor⟩ = [] →
    gapsAt (placesInElse successor whenFalse) = [] →
    (∀ s ∈ layoutElse mergeType successor name whenFalse, s ∈ g.states) →
    g.Reaches (elseName successor name whenFalse) →
    Covered g successor (layoutElse mergeType successor name whenFalse)
  | _, _, _, _, some _, hgaps, h, hin, hr =>
      layoutList_covered (Place.whenFalse_ne_nil hgaps) h hin hr
  | some _, _, _, _, none, _, _, _, hr =>
      ⟨fun _ hs => absurd hs List.not_mem_nil, fun _ hnext => Option.some.inj hnext ▸ hr⟩
  | none, _, _, _, none, _, _, _, hr =>
      ⟨fun _ hs => List.mem_singleton.mp hs ▸ hr, fun _ hnext => nomatch hnext⟩

end

/-! ## The graphs inside -/

theorem scopesInStates_joined (mergeType name : String) (scopes : List (Scope State))
    (fields : List (String × Json)) (successor : Option Step) :
    State.scopesInStates (joined mergeType name scopes fields successor)
      = State.scopesInBranches scopes := by
  rw [joined]
  split
  · exact List.append_nil _
  · exact List.append_nil _

mutual

theorem mem_scopes_layout : ∀ {successor : Option Step} {step : Step},
    gapsAt (places successor step) = [] →
    ∀ g ∈ State.scopesInStates (layout mergeType successor step),
      ∃ branch, branch ≠ [] ∧ (placesInList none branch).Sublist (places successor step) ∧
        g = layoutScope mergeType branch
  | _, .task _ _, _, g, hg => absurd hg List.not_mem_nil
  | successor, .choice name condition whenTrue whenFalse, h, g, hg => by
      simp only [layout, State.scopesInStates, State.scopesInside, List.nil_append,
        State.scopesInStates_append] at hg
      rw [places, gapsAt_cons, List.append_eq_nil_iff, gapsAt_append, List.append_eq_nil_iff] at h
      rw [places]
      rcases List.mem_append.mp hg with hg | hg
      · obtain ⟨branch, hne, hsub, heq⟩ := mem_scopes_layoutList h.2.1 g hg
        exact ⟨branch, hne, .cons _ (hsub.trans (List.sublist_append_left _ _)), heq⟩
      · obtain ⟨branch, hne, hsub, heq⟩ := mem_scopes_layoutElse h.2.2 g hg
        exact ⟨branch, hne, .cons _ (hsub.trans (List.sublist_append_right _ _)), heq⟩
  | successor, .parallel name branches fields, h, g, hg => by
      rw [layout, scopesInStates_joined] at hg
      rw [places, gapsAt_cons, List.append_eq_nil_iff] at h
      rw [places]
      obtain ⟨branch, hne, hsub, heq⟩ :=
        mem_scopes_layoutBranches (Place.branch_ne_nil h.1) h.2 g hg
      exact ⟨branch, hne, .cons _ hsub, heq⟩

theorem mem_scopes_layoutList : ∀ {successor : Option Step} {steps : List Step},
    gapsAt (placesInList successor steps) = [] →
    ∀ g ∈ State.scopesInStates (layoutList mergeType successor steps),
      ∃ branch, branch ≠ [] ∧ (placesInList none branch).Sublist (placesInList successor steps) ∧
        g = layoutScope mergeType branch
  | _, [], _, g, hg => absurd hg List.not_mem_nil
  | successor, step :: rest, h, g, hg => by
      rw [layoutList, State.scopesInStates_append] at hg
      rw [placesInList, gapsAt_append, List.append_eq_nil_iff] at h
      rw [placesInList]
      rcases List.mem_append.mp hg with hg | hg
      · obtain ⟨branch, hne, hsub, heq⟩ := mem_scopes_layout h.1 g hg
        exact ⟨branch, hne, hsub.trans (List.sublist_append_left _ _), heq⟩
      · obtain ⟨branch, hne, hsub, heq⟩ := mem_scopes_layoutList h.2 g hg
        exact ⟨branch, hne, hsub.trans (List.sublist_append_right _ _), heq⟩

theorem mem_scopes_layoutElse : ∀ {successor : Option Step} {name : String}
    {whenFalse : Option (List Step)}, gapsAt (placesInElse successor whenFalse) = [] →
    ∀ g ∈ State.scopesInStates (layoutElse mergeType successor name whenFalse),
      ∃ branch, branch ≠ [] ∧
        (placesInList none branch).Sublist (placesInElse successor whenFalse) ∧
        g = layoutScope mergeType branch
  | _, _, some _, h, g, hg => mem_scopes_layoutList h g hg
  | some _, _, none, _, _, hg => absurd hg List.not_mem_nil
  | none, _, none, _, _, hg => absurd hg List.not_mem_nil

theorem mem_scopes_layoutBranches : ∀ {branches : List (List Step)},
    (∀ branch ∈ branches, branch ≠ []) → gapsAt (placesInBranches branches) = [] →
    ∀ g ∈ State.scopesInBranches (layoutBranches mergeType branches),
      ∃ branch, branch ≠ [] ∧ (placesInList none branch).Sublist (placesInBranches branches) ∧
        g = layoutScope mergeType branch
  | [], _, _, g, hg => absurd hg List.not_mem_nil
  | branch :: rest, hne, h, g, hg => by
      rw [layoutBranches, State.scopesInBranches] at hg
      rw [placesInBranches, gapsAt_append, List.append_eq_nil_iff] at h
      rw [placesInBranches]
      rcases List.mem_append.mp hg with hg | hg
      · have hbranch := List.sublist_append_left (placesInList none branch) (placesInBranches rest)
        rw [State.scopesOf] at hg
        rcases List.mem_cons.mp hg with rfl | hg
        · exact ⟨branch, hne branch List.mem_cons_self, hbranch, rfl⟩
        · obtain ⟨inner, hinner, hsub, heq⟩ := mem_scopes_layoutList h.1 g hg
          exact ⟨inner, hinner, hsub.trans hbranch, heq⟩
      · obtain ⟨inner, hinner, hsub, heq⟩ :=
          mem_scopes_layoutBranches (fun b hb => hne b (List.mem_cons_of_mem _ hb)) h.2 g hg
        exact ⟨inner, hinner, hsub.trans (List.sublist_append_right _ _), heq⟩

end

/-! ## Names -/

theorem namesInStates_joined (name : String) (branches : List (List Step))
    (scopes : List (Scope State)) (fields : List (String × Json)) (successor : Option Step) :
    (State.namesInStates (joined mergeType name scopes fields successor)).Perm
      (Place.names mergeType ⟨.parallel name branches fields, successor⟩ ++
        State.namesInBranches scopes) := by
  rw [joined, Place.names, madeUp_parallel]
  cases successor.filter (isJoin mergeType) with
  | some next =>
    rw [State.namesInStates, State.namesInStates, State.allNames, List.append_nil]
    exact .refl _
  | none => exact .cons name List.perm_append_comm

mutual

theorem allNames_layout : ∀ (successor : Option Step) (step : Step),
    (State.namesInStates (layout mergeType successor step)).Perm
      (namesAt mergeType (places successor step))
  | successor, .task name fields => .refl _
  | successor, .choice name condition whenTrue whenFalse => by
      rw [layout, places, State.namesInStates, State.namesInStates_append, namesAt_cons,
        namesAt_append, Place.names]
      refine .cons name (((allNames_layoutList successor whenTrue).append
        (allNames_layoutElse successor name condition whenTrue whenFalse)).trans ?_)
      exact List.perm_append_comm_assoc _ _ _
  | successor, .parallel name branches fields => by
      rw [layout, places, namesAt_cons]
      exact (namesInStates_joined name branches _ fields successor).trans
        ((allNames_layoutBranches branches).append_left _)

theorem allNames_layoutList : ∀ (successor : Option Step) (steps : List Step),
    (State.namesInStates (layoutList mergeType successor steps)).Perm
      (namesAt mergeType (placesInList successor steps))
  | _, [] => .refl _
  | successor, step :: rest => by
      rw [layoutList, placesInList, State.namesInStates_append, namesAt_append]
      exact (allNames_layout _ step).append (allNames_layoutList successor rest)

theorem allNames_layoutElse : ∀ (successor : Option Step) (name : String)
    (condition : List (String × Json)) (whenTrue : List Step) (whenFalse : Option (List Step)),
    (State.namesInStates (layoutElse mergeType successor name whenFalse)).Perm
      (Place.madeUp mergeType ⟨.choice name condition whenTrue whenFalse, successor⟩ ++
        namesAt mergeType (placesInElse successor whenFalse))
  | successor, _, _, _, some steps => allNames_layoutList successor steps
  | some _, _, _, _, none => .refl _
  | none, _, _, _, none => .refl _

theorem allNames_layoutBranches : ∀ branches : List (List Step),
    (State.namesInBranches (layoutBranches mergeType branches)).Perm
      (namesAt mergeType (placesInBranches branches))
  | [] => .refl _
  | branch :: rest => by
      rw [layoutBranches, placesInBranches, namesAt_append]
      exact (allNames_layoutList none branch).append (allNames_layoutBranches rest)

end

/-! ## Layouts of whole scopes -/

theorem layoutScope_closed {steps : List Step} (hne : steps ≠ [])
    (hgaps : gapsAt (placesInList none steps) = []) : (layoutScope mergeType steps).Closed :=
  ⟨startName_mem_layoutList hne, (layoutList_forward hgaps).mem_names⟩

theorem layoutScope_names_nodup {steps : List Step}
    (h : Sound mergeType (placesInList none steps)) : (layoutScope mergeType steps).names.Nodup :=
  ((allNames_layoutList none steps).nodup_iff.mpr h.names).sublist
    (State.map_name_sublist_namesInStates _)

theorem layoutScope_unreachable {steps : List Step} (hne : steps ≠ [])
    (h : Sound mergeType (placesInList none steps)) :
    (layoutScope mergeType steps).unreachable = [] := by
  refine StateGraph.unreachable_eq_nil_iff.mpr
    ⟨fun _ => startName_mem_layoutList hne, layoutScope_names_nodup h, fun s hs => ?_⟩
  have hreaches : (layoutScope mergeType steps).Reaches s.name :=
    (layoutList_covered hne h.gaps (fun _ hs => hs) .start).states s hs
  exact hreaches.path (List.mem_map_of_mem hs)

/-- A graph inside the layout of a list of steps is the layout of such a list, whose places are
among the places of the whole. -/
theorem exists_branch_of_mem_scopes {steps : List Step} (hne : steps ≠ [])
    (hgaps : gapsAt (placesInList none steps) = []) :
    ∀ g ∈ (layoutScope mergeType steps).scopes, ∃ branch, branch ≠ [] ∧
      (placesInList none branch).Sublist (placesInList none steps) ∧
      g = layoutScope mergeType branch := by
  intro g hg
  rcases List.mem_cons.mp hg with rfl | hg
  · exact ⟨steps, hne, .refl _, rfl⟩
  · exact mem_scopes_layoutList hgaps g hg

theorem mem_scopes_layoutScope {steps : List Step} (hne : steps ≠ [])
    (h : Sound mergeType (placesInList none steps)) :
    ∀ g ∈ (layoutScope mergeType steps).scopes, ∃ branch, branch ≠ [] ∧
      Sound mergeType (placesInList none branch) ∧ g = layoutScope mergeType branch := by
  intro g hg
  obtain ⟨branch, hbranch, hsub, heq⟩ := exists_branch_of_mem_scopes hne h.gaps g hg
  exact ⟨branch, hbranch, h.sublist hsub, heq⟩

end Step

/-! ## Which plans compile -/

namespace Plan

variable {mergeType : String} {plan : Plan}

/-- The checks behind the compiler find nothing in a layout. -/
theorem checkLinks_layout (h : Sound mergeType plan.places) :
    checkLinks (plan.layout mergeType) = .ok (plan.layout mergeType) := by
  have hscopes := Step.mem_scopes_layoutScope plan.nonempty h
  have hdangling : (plan.layout mergeType).danglingReferences = [] := by
    refine StateGraph.danglingReferences_eq_nil fun g hg => ?_
    obtain ⟨branch, hne, hsound, rfl⟩ := hscopes g hg
    exact Step.layoutScope_closed hne hsound.gaps
  have hunreachable : (plan.layout mergeType).unreachableStates = [] := by
    rw [StateGraph.unreachableStates_eq]
    refine List.flatMap_eq_nil_iff.mpr fun g hg => ?_
    obtain ⟨branch, hne, hsound, rfl⟩ := hscopes g hg
    exact Step.layoutScope_unreachable hne hsound
  rw [checkLinks, hdangling, hunreachable]

/-- Compilation behind linking changes nothing. -/
theorem compile_eq_link (mergeType : String) (plan : Plan) :
    plan.compile mergeType = plan.link mergeType := by
  rw [compile]
  cases hlink : plan.link mergeType with
  | error e => rfl
  | ok g =>
    obtain ⟨rfl, hgaps, hnames⟩ := link_ok hlink
    exact checkLinks_layout ⟨hgaps, hnames⟩

/-- A plan compiles exactly if it has no gap and its names, the made-up ones included, all differ.
The graph then has these names.  Otherwise the fault is a field that is empty indeed, or a name that
occurs twice. -/
theorem compile_acceptance (mergeType : String) (plan : Plan) :
    ((∃ g, plan.compile mergeType = .ok g) ↔
        plan.gaps = [] ∧ (plan.names mergeType).Nodup) ∧
      (∀ g, plan.compile mergeType = .ok g → g.allNames.Perm (plan.names mergeType)) ∧
      ∀ e, plan.compile mergeType = .error e → Explained (plan.names mergeType) plan.gaps e := by
  rw [compile_eq_link]
  refine ⟨⟨fun ⟨g, hg⟩ => (link_ok hg).2, fun ⟨hgaps, hnames⟩ => ?_⟩, fun g hg => ?_,
    fun e he => link_error he⟩
  · cases hlink : plan.link mergeType with
    | ok g => exact ⟨g, rfl⟩
    | error e =>
      have hexplained := link_error hlink
      rw [hgaps] at hexplained
      exact (hexplained.elim hnames).elim
  · obtain ⟨rfl, -⟩ := link_ok hg
    exact Step.allNames_layoutList none plan.steps

end Plan

end Rollout
