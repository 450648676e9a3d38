import Mathlib.Data.List.Basic
import Rollout.Deployment.Name

/-!
# Segments and attempt keys

Splitting a text at a separator and joining the parts again are inverse to each other, as long as
there is a part and no part has the separator (`segments_eq_iff`).  So a text is its parts.

A search for the last separator takes the last part off, or finds that there is only one
(`splitLast?_cases`).  The attempt key of an execution comes from two such searches, and is the part
before the last, or the only one (`segments_attemptKey`).
-/

namespace Rollout

/-! ## Segments -/

theorem splitAt_eq_splitOn (separator : Char) (cs : List Char) :
    splitAt separator cs = cs.splitOn separator := by
  induction cs with
  | nil => rfl
  | cons c rest ih =>
    rw [List.splitOn_cons_eq_if_modifyHead, splitAt, ih]
    by_cases h : c = separator
    · simp [h]
    · rw [if_neg h, if_neg (by simpa using h)]
      cases hrest : rest.splitOn separator with
      | nil => exact absurd hrest (List.splitOn_ne_nil separator rest)
      | cons first more => rfl

theorem splitAt_ne_nil (separator : Char) (cs : List Char) : splitAt separator cs ≠ [] := by
  rw [splitAt_eq_splitOn]
  exact List.splitOn_ne_nil separator cs

/-- No part has the separator. -/
theorem not_mem_of_mem_splitAt {separator : Char} : ∀ {cs part : List Char},
    part ∈ splitAt separator cs → separator ∉ part
  | [], part, h => by
      rw [List.mem_singleton.mp h]
      exact List.not_mem_nil
  | c :: rest, part, h => by
      rw [splitAt] at h
      split at h
      next =>
        rcases List.mem_cons.mp h with rfl | h
        · exact List.not_mem_nil
        · exact not_mem_of_mem_splitAt h
      next hc =>
        cases hrest : splitAt separator rest with
        | nil => exact absurd hrest (splitAt_ne_nil separator rest)
        | cons first more =>
          have hmore : ∀ other ∈ first :: more, separator ∉ other := fun other hother =>
            not_mem_of_mem_splitAt (hrest ▸ hother)
          rw [hrest] at h
          rcases List.mem_cons.mp h with rfl | h
          · exact List.not_mem_cons_of_ne_of_not_mem (Ne.symm hc) (hmore first List.mem_cons_self)
          · exact hmore part (List.mem_cons_of_mem _ h)

/-- The parts that make up a text: there is one, none has the separator, and they are joined by
it. -/
structure Parts (separator : Char) (text : String) (parts : List String) : Prop where
  ne_nil : parts ≠ []
  plain : ∀ part ∈ parts, separator ∉ part.toList
  joined : (String.singleton separator).intercalate parts = text

/-- A text has one list of parts, its segments. -/
theorem segments_eq_iff {separator : Char} {text : String} {parts : List String} :
    segments separator text = parts ↔ Parts separator text parts := by
  constructor
  · rintro rfl
    refine ⟨?_, fun part hpart => ?_, ?_⟩
    · exact fun h => splitAt_ne_nil separator text.toList (List.map_eq_nil_iff.mp h)
    · obtain ⟨cs, hcs, rfl⟩ := List.mem_map.mp hpart
      rw [String.toList_ofList]
      exact not_mem_of_mem_splitAt hcs
    · rw [← String.toList_inj, String.toList_intercalate, segments, List.map_map]
      simp [Function.comp_def, splitAt_eq_splitOn, List.intercalate_splitOn]
  · rintro ⟨hne, hplain, rfl⟩
    have hparts : splitAt separator ((String.singleton separator).intercalate parts).toList =
        parts.map String.toList := by
      rw [splitAt_eq_splitOn, String.toList_intercalate, String.toList_singleton]
      refine List.splitOn_intercalate separator ?_ (by simpa using hne)
      simpa using hplain
    rw [segments, hparts, List.map_map]
    simp [Function.comp_def]

theorem segments_append (separator : Char) (before behind : String) :
    segments separator (before ++ String.singleton separator ++ behind) =
      segments separator before ++ segments separator behind := by
  simp only [segments, String.toList_append, String.toList_singleton, splitAt_eq_splitOn,
    List.append_assoc, List.cons_append, List.nil_append, List.splitOn_append_cons_self,
    List.map_append]

/-- A text without the separator is its only part. -/
theorem segments_of_not_mem {separator : Char} {text : String} (h : separator ∉ text.toList) :
    segments separator text = [text] := by
  refine segments_eq_iff.mpr ⟨List.cons_ne_nil _ _, ?_, rfl⟩
  simpa using h

/-! ## The last separator -/

/-- There is no separator, or the cut is at one with none behind it. -/
theorem cutLast?_cases (separator : Char) : ∀ cs : List Char,
    cutLast? separator cs = none ∧ separator ∉ cs ∨
      ∃ before behind, cutLast? separator cs = some (before, behind) ∧
        cs = before ++ separator :: behind ∧ separator ∉ behind
  | [] => .inl ⟨rfl, List.not_mem_nil⟩
  | c :: rest => by
      rw [cutLast?]
      rcases cutLast?_cases separator rest with ⟨hnone, hrest⟩ | ⟨before, behind, hsome, hrest, hno⟩
      · rw [hnone]
        by_cases h : c = separator
        · exact .inr ⟨[], rest, if_pos h, by rw [h, List.nil_append], hrest⟩
        · exact .inl ⟨if_neg h, List.not_mem_cons_of_ne_of_not_mem (Ne.symm h) hrest⟩
      · rw [hsome]
        exact .inr ⟨c :: before, behind, rfl, by rw [hrest, List.cons_append], hno⟩

/-- A text is not split and is its only segment, or it is split before its last segment. -/
theorem splitLast?_cases (separator : Char) (text : String) :
    splitLast? separator text = none ∧ segments separator text = [text] ∨
      ∃ before last, splitLast? separator text = some (before, last) ∧
        segments separator text = segments separator before ++ [last] := by
  rw [splitLast?]
  rcases cutLast?_cases separator text.toList with ⟨hnone, hno⟩ | ⟨before, behind, hsome, hcs, hno⟩
  · exact .inl ⟨by rw [hnone, Option.map_none], segments_of_not_mem hno⟩
  · refine .inr ⟨String.ofList before, String.ofList behind, by rw [hsome, Option.map_some], ?_⟩
    have hlast : separator ∉ (String.ofList behind).toList := by rwa [String.toList_ofList]
    have htext : text =
        String.ofList before ++ String.singleton separator ++ String.ofList behind := by
      simp [← String.toList_inj, hcs]
    rw [htext, segments_append, segments_of_not_mem hlast]

/-! ## Attempt keys -/

/-- The two searches from the right find the segment before the last one, or the only one. -/
theorem segments_attemptKey (execution : String) :
    segments ':' execution = [execution] ∧ attemptKey execution = execution ∨
      ∃ before last, segments ':' execution = before ++ [attemptKey execution, last] := by
  rw [attemptKey]
  rcases splitLast?_cases ':' execution with ⟨hnone, hsegments⟩ | ⟨attempt, last, hsome, hsegments⟩
  · rw [hnone]
    exact .inl ⟨hsegments, rfl⟩
  · rw [hsome, hsegments]
    dsimp only
    rcases splitLast?_cases ':' attempt with ⟨hnone, hattempt⟩ | ⟨before, key, hsome, hattempt⟩
    · rw [hnone, hattempt]
      exact .inr ⟨[], last, rfl⟩
    · rw [hsome, hattempt, List.append_assoc]
      exact .inr ⟨segments ':' before, last, rfl⟩

theorem attemptKey_of_segments {execution key last : String} {before : List String}
    (h : segments ':' execution = before ++ [key, last]) : attemptKey execution = key := by
  rcases segments_attemptKey execution with ⟨hone, -⟩ | ⟨front, other, hsegments⟩
  · have hlength := congrArg List.length (hone.symm.trans h)
    simp at hlength
  · have hback := (List.append_inj' (hsegments.symm.trans h) rfl).2
    exact (List.cons_eq_cons.mp hback).1

/-- A key has no colon. -/
theorem colon_not_mem_attemptKey (execution : String) : ':' ∉ (attemptKey execution).toList := by
  have hparts := segments_eq_iff.mp (rfl : segments ':' execution = _)
  refine hparts.plain _ ?_
  rcases segments_attemptKey execution with ⟨hone, hkey⟩ | ⟨before, last, hsegments⟩
  · rw [hone, hkey]
    exact List.mem_singleton_self execution
  · rw [hsegments]
    exact List.mem_append_right before List.mem_cons_self

/-- The last part has no say in the key. -/
theorem attemptKey_append (before : String) {last other : String} (hlast : ':' ∉ last.toList)
    (hother : ':' ∉ other.toList) :
    attemptKey (before ++ ":" ++ last) = attemptKey (before ++ ":" ++ other) := by
  have hparts := segments_eq_iff.mp (rfl : segments ':' before = _)
  obtain hnil | ⟨front, key, hfront⟩ := List.eq_nil_or_concat' (segments ':' before)
  · exact absurd hnil hparts.ne_nil
  have hkey : ∀ {part : String}, ':' ∉ part.toList →
      attemptKey (before ++ ":" ++ part) = key := by
    intro part hpart
    have happend := segments_append ':' before part
    rw [segments_of_not_mem hpart, hfront, List.append_assoc] at happend
    exact attemptKey_of_segments happend
  rw [hkey hlast, hkey hother]

end Rollout
