import Bulletin.Convert
import Bulletin.Proofs.Mdast.RoundTrip
import Mathlib

/-! # Reading a document tree again

A document tree that is read from a JSON text without fractions can be written, with any indentation,
and what is written is read again as the same tree, strictly or leniently and with no warning. So
reading and writing are stable after the first reading: the same tree gives the same text.

* `readTree_dumpTree`: a canonical and plain root is read back from its text.
* `reread_stable`: the trees that `readTree` gives are of this kind. -/

namespace Bulletin.Proofs.Convert.Reread

open Bulletin.Mdast (Node readDocument)
open Runs

/-- What is reported when a tree has been read. -/
def treeRecord (root : Node) : Record :=
  ⟨.debug, .treeDocuments, s!"Read mdast tree with {root.children.length} top-level nodes"⟩

theorem readTree_eq_ok {o : TreeOptions} {text : String} {root : Node} {log log' : List Record} :
    readTree o text log = (.ok root, log') ↔ ∃ v log₁, Json.read text = .ok v ∧
      readDocument o.strict.truthy v log = (.ok root, log₁) ∧ log' = log₁ ++ [treeRecord root] := by
  constructor
  · intro h
    obtain ⟨v, log₀, hv, h⟩ := bind_eq_ok.1 h
    obtain ⟨hread, rfl⟩ := lift_eq_ok.1 hv
    obtain ⟨n, log₁, hn, h⟩ := bind_eq_ok.1 h
    obtain ⟨⟨⟩, log₂, hr, h⟩ := bind_eq_ok.1 h
    cases hr
    obtain ⟨rfl, rfl⟩ := pure_eq_ok.1 h
    exact ⟨v, log₁, except_mapError_eq_ok.1 hread, mapError_eq_ok.1 hn, rfl⟩
  · rintro ⟨v, log₁, hv, hn, rfl⟩
    refine (bind_ok (lift_eq_ok.2 ⟨except_mapError_eq_ok.2 hv, rfl⟩)).trans ?_
    exact (bind_ok (mapError_eq_ok.2 hn)).trans rfl

/-- **A canonical and plain root is read back from its text.** -/
theorem readTree_dumpTree {root : Node} (hc : root.Canonical) (hp : root.Plain) (hn : root.IsRoot)
    (indent : Option Nat) : ∃ d, dumpTree root indent = .ok d ∧
      ∀ (o : TreeOptions) (log : List Record),
        readTree o d log = (.ok root, log ++ [treeRecord root]) := by
  obtain ⟨d, v, hd, hv, hr⟩ := Mdast.RoundTrip.read_toJson hc hp hn indent
  exact ⟨d, except_mapError_eq_ok.2 hd, fun o log =>
    readTree_eq_ok.2 ⟨v, log, hv, hr o.strict.truthy log, rfl⟩⟩

/-- **What a text without fractions is read as is read again from what it is written as**, and
written again as the same text. -/
theorem reread_stable {o : TreeOptions} {text : String} {v : Value} {root : Node}
    {log log' : List Record} (hv : Json.read text = .ok v) (hi : v.Integral)
    (h : readTree o text log = (.ok root, log')) (indent : Option Nat) :
    ∃ d, dumpTree root indent = .ok d ∧ ∀ (o : TreeOptions) (log : List Record),
      readTree o d log = (.ok root, log ++ [treeRecord root]) ∧
      (do Logged.lift (dumpTree (← readTree o d) indent)) log =
        (.ok d, log ++ [treeRecord root]) := by
  obtain ⟨w, log₁, hw, hr, -⟩ := readTree_eq_ok.1 h
  obtain rfl : v = w := Except.ok.inj (hv.symm.trans hw)
  obtain ⟨⟨hc, hp⟩, hn⟩ := Mdast.fromValue_of_readDocument hr
  have hplain : v.Plain := ⟨hi, Json.RoundTrip.readable_of_read hv⟩
  obtain ⟨d, hd, hback⟩ := readTree_dumpTree hc (hp hplain) hn indent
  refine ⟨d, hd, fun o log => ⟨hback o log, ?_⟩⟩
  rw [bind_ok (hback o log), hd]
  rfl

/-- A document with a heading whose depth is a truth value, a text that is none, and a node of no
known type. -/
def odd : Value :=
  .dict [("type", .str "root"), ("children", .list [
    .dict [("type", .str "heading"), ("depth", .bool true), ("children", .list [
      .dict [("type", .str "text"), ("value", .list [.int 1, .dict [("\"\n", .null)]]),
        ("position", .dict [("start", .dict [("line", .int 3)])])]])],
    .dict [("type", .str "unheard")]])]

/-- What that document is read as: the heading only. -/
def oddRoot : Node :=
  .container .root [.of (.heading (.int 1)) [.leaf
    (.literal .text (.list [.int 1, .dict [("\"\n", .null)]])) (some ⟨.int 3, .null⟩)]]

theorem reread_stable_odd : Json.read (Json.write odd) = .ok odd ∧ odd.Integral ∧
    (∃ log', readTree ⟨.bool false⟩ (Json.write odd) [] = (.ok oddRoot, log')) ∧
      ∃ d, dumpTree oddRoot (some 2) = .ok d ∧ ∀ (o : TreeOptions) (log : List Record),
        readTree o d log = (.ok oddRoot, log ++ [treeRecord oddRoot]) ∧
        (do Logged.lift (dumpTree (← readTree o d) (some 2))) log =
          (.ok d, log ++ [treeRecord oddRoot]) := by
  have hp : odd.Plain := by decide
  have hv : Json.read (Json.write odd) = .ok odd := Json.RoundTrip.read_write hp none
  have hr : readDocument false odd [] = (.ok oddRoot,
      [⟨.warning, .treeReader, "Unknown node type 'unheard', skipping"⟩]) := by cbv
  have h : readTree ⟨.bool false⟩ (Json.write odd) [] = (.ok oddRoot, _) :=
    readTree_eq_ok.2 ⟨odd, _, hv, hr, rfl⟩
  exact ⟨hv, hp.1, ⟨_, h⟩, reread_stable hv hp.1 h (some 2)⟩

end Bulletin.Proofs.Convert.Reread
