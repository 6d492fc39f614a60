import Bulletin.Proofs.Convert.Parse
import Bulletin.Proofs.Text.Utf8
import Mathlib

/-! # Ways of handing over a text

A text is handed over as itself, as its bytes, from a stream of bytes or of characters, or in a file.
All of these but the first take a byte order mark off its start. So they give the same document, or
fail in the same way, and agree with the text itself unless it starts with such a mark.

* `textOf_handovers`: the text that is read.
* `handed_over_alike`: what the ways of handing over a text give. -/

namespace Bulletin.Proofs.Convert.Handover

open Bulletin.Mdast (Node)
open Parse Runs

/-- A text that starts with a byte order mark. -/
def Marked (t : String) : Prop := t.toList.head? = some '\uFEFF'

/-- A text without the byte order mark at its start. -/
def unmarked (t : String) : String := .ofList (Text.dropMark t.toList)

/-- **The ways of handing over a text** other than as itself: as its bytes, from a stream of them,
from a stream of its characters, and as a file that holds its bytes. -/
def handovers (t : String) (p : Path) : List Input :=
  [.bytes (encodeText t), .byteStream (encodeText t), .textStream t, .file p]

/-- The document of an input in a format, or the failure to read it. -/
def handed (format : Format) (reader : Option Options) (tokenizer : Tokenizer) (w : Workspace)
    (input : Input) : Except Failure Node := (parse input (.str format.name) reader tokenizer w).1

variable {t : String} {p : Path} {w : Workspace}

theorem unmarked_of_not_marked (h : ¬ Marked t) : unmarked t = t := by
  have hdrop : Text.dropMark t.toList = t.toList := by
    unfold Text.dropMark
    split
    · next r hr =>
      have hmarked : Marked t := by
        unfold Marked
        rw [hr]
        rfl
      exact absurd hmarked h
    · rfl
  rw [unmarked, hdrop, String.ofList_toList]

theorem decodeText_encodeText (t name : String) :
    decodeText (encodeText t) name = .ok (unmarked t) := by
  rw [decodeText, encodeText, Text.decode_encode]
  rfl

/-- **The text that is read** is the one that is handed over, without its mark. -/
theorem textOf_handovers (hp : w.store.read w.here p = .ok (encodeText t)) :
    ∀ input ∈ handovers t p, textOf w input = .ok (unmarked t) := by
  have hfile : textOf w (.file p) = .ok (unmarked t) := by
    rw [textOf, Input.load, readText_eq, hp]
    exact decodeText_encodeText t p.toString
  have hbytes : Job.ofLogged (Logged.lift (decodeText (encodeText t) unnamedBytes)) w =
      (.ok (unmarked t), w) := by
    rw [decodeText_encodeText]
    rfl
  intro input hinput
  simp only [handovers, List.mem_cons, List.not_mem_nil, or_false] at hinput
  rcases hinput with rfl | rfl | rfl | rfl
  · exact congrArg Prod.fst hbytes
  · exact congrArg Prod.fst hbytes
  · rfl
  · exact hfile

theorem handed_congr {input input' : Input} (h : textOf w input = textOf w input')
    (format : Format) (reader : Option Options) (tokenizer : Tokenizer) :
    handed format reader tokenizer w input = handed format reader tokenizer w input' := by
  have hformat : ∀ i : Input, i.format (.str format.name) = .ok format := by
    intro i
    cases format <;> rfl
  unfold handed
  rw [(gives_parse _ _ _ _ _).fst, (gives_parse _ _ _ _ _).fst]
  unfold documentOf
  rw [hformat, hformat, h]

theorem handed_handovers (hp : w.store.read w.here p = .ok (encodeText t)) (format : Format)
    (reader : Option Options) (tokenizer : Tokenizer) : ∀ input ∈ handovers t p,
      handed format reader tokenizer w input = handed format reader tokenizer w (.text (unmarked t)) := by
  intro input hinput
  have htext : textOf w input = textOf w (.text (unmarked t)) := textOf_handovers hp input hinput
  exact handed_congr htext format reader tokenizer

/-- **What the ways of handing over a text give**: its bytes, streams and a file give what the text
without its byte order mark gives, the same document or the same failure. So they give what the text
itself gives just if its mark makes no difference, and always if it has none. -/
theorem handed_over_alike (t : String) (format : Format) (reader : Option Options)
    (tokenizer : Tokenizer) (hp : w.store.read w.here p = .ok (encodeText t)) :
    (∀ input ∈ handovers t p,
      handed format reader tokenizer w input = handed format reader tokenizer w (.text (unmarked t))) ∧
    (∀ input ∈ handovers t p, handed format reader tokenizer w input = handed format reader tokenizer w (.text t) ↔
      handed format reader tokenizer w (.text (unmarked t)) = handed format reader tokenizer w (.text t)) ∧
    (¬ Marked t → ∀ input ∈ handovers t p,
      handed format reader tokenizer w input = handed format reader tokenizer w (.text t)) := by
  have hall := handed_handovers hp format reader tokenizer
  refine ⟨hall, fun input hinput => ?_, fun hmark input hinput => ?_⟩
  · rw [hall input hinput]
  · rw [hall input hinput, unmarked_of_not_marked hmark]

/-! ### A text with a mark -/

/-- The JSON text of an empty document. -/
def emptyTree : String := "\x7b\"type\": \"root\"\x7d"

/-- The same text after a byte order mark. -/
def markedTree : String := "\uFEFF\x7b\"type\": \"root\"\x7d"

/-- A workspace with this text in a file. -/
def markedDesk : Workspace where
  store := { entries := [(["a.json"], .file (encodeText markedTree))] }

/-- That file. -/
def markedFile : Path := ⟨"", ["a.json"]⟩

theorem handed_over_alike_markedTree :
    markedDesk.store.read markedDesk.here markedFile = .ok (encodeText markedTree) ∧
    ∀ input ∈ handovers markedTree markedFile,
      handed .tree none ownTokenizer markedDesk input = handed .tree none ownTokenizer markedDesk (.text emptyTree) := by
  have hread : markedDesk.store.read markedDesk.here markedFile = .ok (encodeText markedTree) := rfl
  have htext : unmarked markedTree = emptyTree := by decide
  have h := (handed_over_alike markedTree .tree none ownTokenizer hread).1
  rw [htext] at h
  exact ⟨hread, h⟩

/-- **A mark makes a difference**: the text itself is refused because of its mark, and its bytes,
streams and file are read as an empty document. -/
theorem tree_refused_behind_mark :
    handed .tree none ownTokenizer markedDesk (.text markedTree) = .error (.json ⟨.byteOrderMark, 1, 1, 0⟩) ∧
    ∀ input ∈ handovers markedTree markedFile,
      handed .tree none ownTokenizer markedDesk input = .ok (.container .root []) := by
  have hread : markedDesk.store.read markedDesk.here markedFile = .ok (encodeText markedTree) := rfl
  have htext : unmarked markedTree = emptyTree := by decide
  have hmarked : handed .tree none ownTokenizer markedDesk (.text markedTree) =
      .error (.json ⟨.byteOrderMark, 1, 1, 0⟩) := by cbv
  have hempty : handed .tree none ownTokenizer markedDesk (.text emptyTree) = .ok (.container .root []) := by cbv
  refine ⟨hmarked, fun input hinput => ?_⟩
  rw [handed_handovers hread _ _ _ input hinput, htext, hempty]

end Bulletin.Proofs.Convert.Handover
