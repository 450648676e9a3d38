import Rollout.CommandLine.Run
import Rollout.Plan.Compilation
import Rollout.Proofs.Yaml.Nodes

/-!
# One plan in two formats

A plan is read as JSON or as YAML by the name of its file, and a compiler that is given a text takes
it for YAML, where JSON may stand as well.  A JSON text whose spelling is portable writes the same
plan in both formats (`Plan.ofYamlText_of_ofJsonText`).  Its containers need no further condition:
JSON allows them to nest one level less than YAML does.

Other JSON texts may be refused as YAML.  A JSON text may write one character beyond the basic plane
as the two escapes of a surrogate pair, neither of which is a character in YAML.
-/

namespace Rollout

namespace Json

/-- A text with a spelling that both formats read alike. -/
def PortableText (text : String) : Prop :=
  ∃ script : Script, script.chars id = text.toList ∧ script.Portable

/-- A portable text of a container has one value in both formats. -/
theorem PortableText.ofText? {text : String} (h : PortableText text) {j : Json}
    (hread : ofText text = .ok j) (hcontainer : 0 < j.depth) : Yaml.ofText? text = some j := by
  obtain ⟨script, htext, hportable⟩ := h
  rw [ofText_script script htext] at hread
  split at hread
  next hdepth =>
    obtain rfl := Except.ok.inj hread
    refine Yaml.ofText?_of_portable hportable ?_ (Nat.le_trans hdepth (by decide)) htext
    generalize script.value.document = document at hcontainer
    cases document with
    | array => exact Nat.succ_pos _
    | object => exact Nat.succ_pos _
    | _ => exact hcontainer
  next => cases hread

end Json

namespace Plan

/-- The graph of a plan that a YAML text writes. -/
def compileYamlText (mergeType text : String) : Except PlanError StateGraph := do
  (← ofYamlText text).compile mergeType

/-- Only lists are plans. -/
theorem depth_pos_of_ofJson {j : Json} {plan : Plan} (h : ofJson j = .ok plan) : 0 < j.depth := by
  cases j with
  | array => exact Nat.succ_pos _
  | _ => cases h

/-- The plan of a portable JSON text is that of the same text as YAML, so the compiler of YAML texts
compiles it, and the name of its file does not matter. -/
theorem ofYamlText_of_ofJsonText {text : String} {plan : Plan} (hread : ofJsonText text = .ok plan)
    (hportable : Json.PortableText text) :
    ofYamlText text = .ok plan ∧
      (∀ mergeType, compileYamlText mergeType text = plan.compile mergeType) ∧
      ∀ path, Command.readPlan path text = .ok plan := by
  have hyaml : ofYamlText text = .ok plan := by
    unfold ofJsonText at hread
    split at hread
    next j hj =>
      rw [ofYamlText, hportable.ofText? hj (depth_pos_of_ofJson hread)]
      exact hread
    next => cases hread
  refine ⟨hyaml, fun mergeType => ?_, fun path => ?_⟩
  · rw [compileYamlText, hyaml]
    rfl
  · rw [Command.readPlan]
    split
    · exact hread
    · exact hyaml

/-! ## A portable plan -/

/-- Characters that are written as themselves. -/
def plainly (word : String)
    (h : (word.toList.all fun c => decide (c ≠ '"' ∧ c ≠ '\\' ∧ 0x20 ≤ c.toNat)) = true) :
    List Json.Piece :=
  word.toList.pmap Json.Piece.plain fun c hc => of_decide_eq_true (List.all_eq_true.mp h c hc)

/-- A text with a tab inside its brackets, an escape and the largest integer. -/
def mixedText : String :=
  "[\n\t\x7b\"Name\": \"\\u00fcb\", \"Size\": 18446744073709551615\x7d]\n"

/-- How it is written. -/
def mixedScript : Json.Script where
  before := .none
  value := .array ⟨['\n', '\t'], by decide⟩ <| .last
    (.object .none <| .more ⟨plainly "Name" (by decide), .none, ⟨[' '], by decide⟩⟩
      (.string (.code ['0', '0', 'f', 'c'] 'ü' rfl :: plainly "b" (by decide)))
      .none ⟨[' '], by decide⟩ <| .last
        ⟨plainly "Size" (by decide), .none, ⟨[' '], by decide⟩⟩
        (.number ⟨"18446744073709551615".toList, .ofUInt64 18446744073709551615,
          by decide +kernel⟩)
        .none)
    .none
  after := ⟨['\n'], by decide⟩

/-- The plan that it writes. -/
def mixedPlan : Plan where
  steps := [.task "üb" [("Size", .number (.ofUInt64 18446744073709551615))]]
  nonempty := List.cons_ne_nil _ _

theorem ofJsonText_mixedText : ofJsonText mixedText = .ok mixedPlan := by
  have hvalue : Json.ofText mixedText = .ok (.array [.object
      [("Name", .string "üb"), ("Size", .number (.ofUInt64 18446744073709551615))]]) := by
    decide +kernel
  rw [ofJsonText, hvalue]
  rfl

theorem portableText_mixedText : Json.PortableText mixedText :=
  ⟨mixedScript, by decide +kernel, by decide +kernel⟩

theorem ofYamlText_mixedText :
    ofJsonText mixedText = .ok mixedPlan ∧ Json.PortableText mixedText ∧
      ofYamlText mixedText = .ok mixedPlan ∧
      (∀ mergeType, compileYamlText mergeType mixedText = mixedPlan.compile mergeType) ∧
      ∀ path, Command.readPlan path mixedText = .ok mixedPlan :=
  ⟨ofJsonText_mixedText, portableText_mixedText,
    ofYamlText_of_ofJsonText ofJsonText_mixedText portableText_mixedText⟩

/-! ## A plan that is not portable -/

/-- A text whose only unusual character is written as a surrogate pair. -/
def surrogateText : String := "[\x7b\"Name\": \"build\", \"Emoji\": \"\\ud83d\\ude80\"\x7d]"

/-- The plan that it writes as JSON. -/
def surrogatePlan : Plan where
  steps := [.task "build" [("Emoji", .string "🚀")]]
  nonempty := List.cons_ne_nil _ _

/-- YAML knows no surrogate pairs. -/
theorem ofYamlText_surrogateText :
    ofJsonText surrogateText = .ok surrogatePlan ∧
      ofYamlText surrogateText ≠ .ok surrogatePlan := by
  have hjson : Json.ofText surrogateText =
      .ok (.array [.object [("Emoji", .string "🚀"), ("Name", .string "build")]]) := by
    decide +kernel
  have hyaml : Yaml.ofText? surrogateText = none := by decide +kernel
  constructor
  · rw [ofJsonText, hjson]
    rfl
  · rw [ofYamlText, hyaml]
    nofun

end Plan

end Rollout
