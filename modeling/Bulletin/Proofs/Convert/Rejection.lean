import Bulletin.Proofs.Convert.Reread
import Bulletin.Proofs.Mdast.Faults

/-! # Which texts are read as document trees

A text that is no JSON is refused at the JSON stage, and the JSON text of a value without faults is
read as a root. A whole number of too many digits ends the reading of a text wherever it stands, and
the text is refused at the stage of the tree. So is a value with faults, with one exception: where the
first of its faults is a heading whose depth is an infinite number, what reading fails with is no
refusal of the document and not one of the library's own failures.

* `readTree_of_fault`: the failure of a text whose value has a fault.
* `readTree_of_excess`: a text that is no JSON and refused as a tree.
* `readTree_outcome`: what becomes of a text. -/

namespace Bulletin.Proofs.Convert.Rejection

open Bulletin.Mdast (Node Fault readDocument documentFaults depthOf)
open Reread Runs

/-- Whether a failure refuses a document, at a stage of its reading. -/
def RefusedAt (stage : String) (f : Failure) : Prop :=
  f.kind = .parsing ∧ f.details.get? "parsing_stage" = some (.str stage)

section Failures
variable {o : TreeOptions} {text : String} {log log' : List Record}

theorem readTree_of_json {e : Json.Error} (h : Json.read text = .error e) :
    readTree o text log = (.error (.json e), log) := by
  have hl : Logged.lift ((Json.read text).mapError Failure.json) log = (.error (.json e), log) := by
    rw [h]
    rfl
  exact bind_error hl

theorem refusedAt_json (e : Json.Error) :
    (RefusedAt "json_parsing" (.json e) ↔ e.fault.isMalformed = true) ∧
      (RefusedAt "ast_deserialization" (.json e) ↔ e.fault.isMalformed = false) := by
  have hstage : ∀ stage, RefusedAt stage (.json e) ↔
      (if e.fault.isMalformed then "json_parsing" else "ast_deserialization") = stage := by
    intro stage
    refine (and_iff_right rfl).trans ⟨fun h => ?_, fun h => congrArg (some ∘ Value.str) h⟩
    exact Value.str.inj (Option.some.inj h)
  rw [hstage, hstage]
  cases e.fault.isMalformed <;> decide

theorem readTree_of_fault {v : Value} {f : Fault} (hv : Json.read text = .ok v)
    (h : readDocument o.strict.truthy v log = (.error f, log')) :
    readTree o text log = (.error (treeFailure f), log') := by
  have hl : Logged.lift ((Json.read text).mapError Failure.json) log = (.ok v, log) :=
    lift_eq_ok.2 ⟨except_mapError_eq_ok.2 hv, rfl⟩
  have hm : Logged.mapError treeFailure (readDocument o.strict.truthy v) log =
      (.error (treeFailure f), log') := by
    show ((readDocument o.strict.truthy v log).1.mapError treeFailure,
      (readDocument o.strict.truthy v log).2) = _
    rw [h]
    rfl
  exact (bind_ok hl).trans (bind_error hm)

/-- **A fault refuses the document**, at the stage of the tree, unless it is a depth that is an
infinite number. -/
theorem refusedAt_treeFailure (f : Fault) :
    (RefusedAt "ast_deserialization" (treeFailure f) ↔ f ≠ .depth .infinite) ∧
      ((treeFailure f).kind.isLibrary = true ↔ f ≠ .depth .infinite) := by
  have hown : ∀ g : Fault, treeFailure g = .shape g → g ≠ .depth .infinite →
      (RefusedAt "ast_deserialization" (treeFailure g) ↔ g ≠ .depth .infinite) ∧
        ((treeFailure g).kind.isLibrary = true ↔ g ≠ .depth .infinite) := by
    intro g hg hne
    rw [hg]
    exact ⟨⟨fun _ => hne, fun _ => ⟨rfl, rfl⟩⟩, ⟨fun _ => hne, fun _ => rfl⟩⟩
  cases f with
  | depth why =>
    cases why with
    | infinite =>
      refine ⟨⟨fun h => ?_, fun h => absurd rfl h⟩, ⟨fun h => ?_, fun h => absurd rfl h⟩⟩
      · cases h.1
      · cases h
    | _ => exact hown _ rfl (by simp)
  | _ => exact hown _ rfl (by simp)

end Failures

/-! ### The outcome of reading -/

/-- **A text is read as a root if it is JSON whose value has no fault**, and else refused at the
stage at which it is wrong, unless the first fault is an infinite depth. A text that stops the reading
of JSON is wrong as JSON, or by a whole number of too many digits, which is put down to the tree. -/
theorem readTree_outcome (o : TreeOptions) (text : String) (log : List Record) :
    (∀ e, Json.read text = .error e → ∃ f log', readTree o text log = (.error f, log') ∧
      (RefusedAt "json_parsing" f ↔ e.fault.isMalformed = true) ∧
      (RefusedAt "ast_deserialization" f ↔ e.fault.isMalformed = false)) ∧
    ∀ v, Json.read text = .ok v →
      (documentFaults o.strict.truthy v = [] →
        ∃ root log', readTree o text log = (.ok root, log') ∧ root.IsRoot) ∧
      ∀ fault rest, documentFaults o.strict.truthy v = fault :: rest →
        ∃ f log', readTree o text log = (.error f, log') ∧
          (RefusedAt "ast_deserialization" f ↔ fault ≠ .depth .infinite) ∧
          (f.kind.isLibrary = true ↔ fault ≠ .depth .infinite) := by
  refine ⟨fun e he => ⟨_, _, readTree_of_json he, refusedAt_json e⟩, fun v hv => ?_⟩
  have hs := Mdast.stops_readDocument o.strict.truthy v log
  rcases hr : readDocument o.strict.truthy v log with ⟨f | root, log'⟩
  · rw [hr] at hs
    refine ⟨fun h => ?_, fun fault rest h => ?_⟩
    · rw [h] at hs
      cases hs
    · rw [h] at hs
      obtain rfl : f = fault := Option.some.inj hs
      exact ⟨_, _, readTree_of_fault hv hr, refusedAt_treeFailure f⟩
  · rw [hr] at hs
    refine ⟨fun _ => ?_, fun fault rest h => ?_⟩
    · exact ⟨root, _, readTree_eq_ok.2 ⟨v, log', hv, hr, rfl⟩,
        (Mdast.fromValue_of_readDocument hr).2⟩
    · rw [h] at hs
      cases hs

/-- A document with a footnote and in it a heading of a level that there is not. -/
def deepHeading : Value :=
  .dict [("type", .str "root"), ("children", .list [.dict [("type", .str "footnoteDefinition"),
    ("identifier", .str "a"), ("children", .list [.dict [("type", .str "heading"),
      ("depth", .int 9)]])]])]

theorem readTree_outcome_deepHeading :
    (∃ e, Json.read "\x7boops" = .error e ∧ ∃ f log', readTree {} "\x7boops" [] = (.error f, log') ∧
      RefusedAt "json_parsing" f) ∧
    Json.read (Json.write deepHeading) = .ok deepHeading ∧
    documentFaults true deepHeading = [.levelRange (.int 9)] ∧
    ∃ f log', readTree {} (Json.write deepHeading) [] = (.error f, log') ∧
      RefusedAt "ast_deserialization" f ∧ f.kind.isLibrary = true := by
  have he : Json.read "\x7boops" = .error ⟨.propertyName, 1, 2, 1⟩ := by cbv
  obtain ⟨g, log₁, hrefused, hjson, -⟩ := (readTree_outcome {} "\x7boops" []).1 _ he
  have hp : deepHeading.Plain := by decide
  have hv : Json.read (Json.write deepHeading) = .ok deepHeading := Json.RoundTrip.read_write hp none
  have hf : documentFaults true deepHeading = [.levelRange (.int 9)] := by cbv
  obtain ⟨f, log', hr, hs, hk⟩ :=
    ((readTree_outcome {} (Json.write deepHeading) []).2 _ hv).2 _ _ hf
  have hne : Fault.levelRange (.int 9) ≠ .depth .infinite := by simp
  exact ⟨⟨_, he, g, log₁, hrefused, hjson.2 rfl⟩, hv, hf, f, log', hr, hs.2 hne, hk.2 hne⟩

/-- A list that is never closed is refused at the stage of the tree if it starts with a whole number of
too many digits. -/
theorem readTree_of_excess (o : TreeOptions) {n : Int} (hn : Value.digitLimit < Value.digitCount n)
    (log : List Record) : ∃ f, readTree o (.ofList ('[' :: (toString n).toList)) log =
      (.error f, log) ∧ RefusedAt "ast_deserialization" f := by
  obtain ⟨e, he, hfault⟩ := Json.RoundTrip.read_of_excess hn (r := []) trivial
  rw [List.append_nil] at he
  exact ⟨_, readTree_of_json he, (refusedAt_json e).2.2 (by rw [hfault]; rfl)⟩

/-- The text of a document with a heading of infinite depth. -/
def endlessText : String :=
  "\x7b\"type\": \"root\", \"children\": [\x7b\"type\": \"heading\", \"depth\": Infinity\x7d]\x7d"

/-- The value that this text writes. -/
def endless : Value :=
  .dict [("type", .str "root"), ("children", .list [
    .dict [("type", .str "heading"), ("depth", .float (.infinite false))]])]

/-- **A heading of infinite depth is not refused** as a document is, neither in strict nor in lenient
reading: what reading fails with has no stage and is not one of the library's own failures. -/
theorem readTree_endless :
    readTree ⟨.bool true⟩ endlessText [] = (.error (.tree (.depth .infinite)), []) ∧
    readTree ⟨.bool false⟩ endlessText [] = (.error (.tree (.depth .infinite)), []) ∧
    (∀ stage, ¬ RefusedAt stage (.tree (.depth .infinite))) ∧
    (Failure.tree (.depth .infinite)).kind = .overflow ∧
    (Failure.tree (.depth .infinite)).kind.isLibrary = false := by
  have hv : Json.read endlessText = .ok endless := by cbv
  have ht : readDocument true endless [] = (.error (.depth .infinite), []) := by cbv
  have hf : readDocument false endless [] = (.error (.depth .infinite), []) := by cbv
  refine ⟨readTree_of_fault (o := ⟨.bool true⟩) hv ht, readTree_of_fault (o := ⟨.bool false⟩) hv hf,
    fun stage h => ?_, rfl, rfl⟩
  cases h.1

end Bulletin.Proofs.Convert.Rejection
