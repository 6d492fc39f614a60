import Bulletin.Markdown.Tokenize
import Bulletin.Proofs.Markdown.Formed

/-! # The tokens of a text are well formed

What the tokenizer puts into a token is a text, or null where a link has no title, and the level of
a heading and the start of a list are whole numbers; a reference refers to something, and all types are
known. This holds of the lexemes that the readers find, and it is kept where runs of emphasis are
paired, where brackets become links and where the text of a link is read by itself. So it holds of a
line of text, and from there of the blocks of a text.

* `formed_of_mem_readers`: the lexemes that are found.
* `formed_resolve`: the pairing of emphasis.
* `formed_scan`: the marks of a line.
* `isNamed_of_destination?`: the references.
* `areFormed_tokenize`: the blocks of a text. -/

namespace Bulletin.Markdown

/-! ### Lexemes -/

/-- Whether a lexeme holds a well-formed token, if it holds one. -/
def Lexeme.isFormed : Lexeme → Bool
  | .token t => t.isFormed
  | .anchor t _ => t.isFormed
  | _ => true

/-- A reader all of whose lexemes are well formed. -/
def Reader.Formed (r : Reader) : Prop :=
  ∀ scene before s lexeme rest, r scene before s = some (lexeme, rest) → lexeme.isFormed = true

namespace Lexeme

theorem formed_escapes : Reader.Formed escapes := by
  intro scene before s lexeme rest h
  unfold escapes at h
  split at h
  · cases h
  · cases h
    rfl

theorem formed_mathematics : Reader.Formed mathematics := by
  intro scene before s lexeme rest h
  unfold mathematics at h
  split_ifs at h
  rcases Option.or_eq_some_iff.1 h with h | ⟨-, h⟩
  · obtain ⟨r, -, h⟩ := Option.bind_eq_some_iff.1 h
    obtain ⟨⟨raw, r⟩, -, h⟩ := Option.bind_eq_some_iff.1 h
    split at h
    · cases h
      rfl
    · cases h
  · obtain ⟨r, -, h⟩ := Option.bind_eq_some_iff.1 h
    obtain ⟨⟨raw, r⟩, -, h⟩ := Option.bind_eq_some_iff.1 h
    cases h
    rfl

theorem formed_code : Reader.Formed code := by
  intro scene before s lexeme rest h
  unfold code at h
  dsimp only at h
  split_ifs at h
  split at h
  · cases h
    rfl
  · cases h
    rfl

theorem formed_emphasis : Reader.Formed emphasis := by
  intro scene before s lexeme rest h
  unfold emphasis at h
  split at h
  · cases h
  · split_ifs at h
    cases h
    rfl

theorem formed_struckPassage : Reader.Formed struckPassage := by
  intro scene before s lexeme rest h
  unfold struckPassage at h
  split_ifs at h
  obtain ⟨r, -, h⟩ := Option.bind_eq_some_iff.1 h
  split_ifs at h
  obtain ⟨⟨passage, r⟩, -, h⟩ := Option.bind_eq_some_iff.1 h
  cases h
  rfl

theorem formed_noteReference : Reader.Formed noteReference := by
  intro scene before s lexeme rest h
  unfold noteReference at h
  split_ifs at h
  obtain ⟨r, -, h⟩ := Option.bind_eq_some_iff.1 h
  obtain ⟨⟨label, r⟩, -, h⟩ := Option.bind_eq_some_iff.1 h
  dsimp only at h
  split_ifs at h
  · cases h
    rfl
  · cases h
    rfl

theorem formed_bracket : Reader.Formed bracket := by
  intro scene before s lexeme rest h
  unfold bracket at h
  split at h
  · cases h
    rfl
  · split_ifs at h
    · cases h
      rfl
    · cases h
      rfl
  · cases h
    rfl
  · cases h

theorem isFormed_selfLink (scene : Scene) (source address text : List Char) :
    (selfLink scene source address text).isFormed = true := by
  unfold selfLink
  split_ifs
  · rfl
  · rfl

theorem formed_angleLink : Reader.Formed angleLink := by
  intro scene before s lexeme rest h
  unfold angleLink at h
  split at h
  · cases h
    exact isFormed_selfLink _ _ _ _
  · obtain ⟨⟨a, r⟩, -, h⟩ := Option.map_eq_some_iff.1 h
    cases h
    exact isFormed_selfLink _ _ _ _

theorem formed_markup : Reader.Formed markup := by
  intro scene before s lexeme rest h
  obtain ⟨r, -, h⟩ := Option.map_eq_some_iff.1 h
  dsimp only at h
  split_ifs at h
  all_goals
    cases h
    rfl

theorem formed_lineEnd : Reader.Formed lineEnd := by
  intro scene before s lexeme rest h
  unfold lineEnd at h
  split at h
  · cases h
    rfl
  · dsimp only at h
    split at h
    · cases h
      unfold isFormed
      split_ifs
      · rfl
      · rfl
    · cases h

theorem formed_bareLink : Reader.Formed bareLink := by
  intro scene before s lexeme rest h
  unfold bareLink at h
  split_ifs at h
  obtain ⟨⟨url, r⟩, -, h⟩ := Option.map_eq_some_iff.1 h
  cases h
  rfl

/-- **The readers find well-formed lexemes.** -/
theorem formed_of_mem_readers : ∀ r ∈ readers, Reader.Formed r := by
  simp only [readers, List.forall_mem_cons]
  exact ⟨formed_escapes, formed_mathematics, formed_code, formed_emphasis, formed_struckPassage,
    formed_noteReference, formed_bracket, formed_angleLink, formed_markup, formed_lineEnd,
    formed_bareLink, by simp⟩

theorem formed_read {scene : Scene} {before : Option Char} {s rest : List Char} {lexeme : Lexeme}
    (h : read scene before s = some (lexeme, rest)) : lexeme.isFormed = true := by
  unfold read at h
  split at h
  · next found hfound =>
    obtain rfl := Option.some.inj h
    obtain ⟨r, hr, hfound⟩ := List.exists_of_findSome?_eq_some hfound
    exact formed_of_mem_readers r hr scene before s lexeme rest hfound
  · split at h
    · cases h
    · cases h
      rfl

end Lexeme

/-! ### Emphasis -/

/-- Whether a piece of a line is a well-formed token or a run. -/
def Piece.isFormed : Piece → Bool
  | .token t => t.isFormed
  | .run _ => true

theorem Piece.isFormed_settle {p : Piece} (h : p.isFormed = true) : p.settle.isFormed = true := by
  cases p with
  | token t => exact h
  | run r => rfl

namespace Emphasis

variable {pieces : List Piece}

theorem findOpener_eq_some {closer opener : Run} : ∀ {pieces after before : List Piece},
    findOpener closer pieces = some (after, opener, before) → pieces = after ++ .run opener :: before
  | [], _, _, h => by cases h
  | .token t :: r, after, before, h => by
    obtain ⟨⟨after', o, b⟩, hr, h⟩ := Option.map_eq_some_iff.1 h
    cases h
    rw [findOpener_eq_some hr, List.cons_append]
  | .run o :: r, after, before, h => by
    unfold findOpener at h
    split_ifs at h with hm
    · cases h
      rfl
    · obtain ⟨⟨after', o', b⟩, hr, h⟩ := Option.map_eq_some_iff.1 h
      cases h
      rw [findOpener_eq_some hr, List.cons_append]

theorem isFormed_around {n : Nat} {children : List Inline} (h : Inline.areFormed children = true) :
    (around n children).isFormed = true := by
  unfold around
  split_ifs
  · exact h
  · exact h

/-- **Pairing keeps pieces well formed**, by induction on the number of pairs. -/
theorem formed_close : ∀ (fuel : Nat) {pieces : List Piece} {closer : Run},
    (∀ p ∈ pieces, p.isFormed = true) → ∀ p ∈ close pieces closer fuel, p.isFormed = true
  | 0, pieces, closer, h => by
    rw [close]
    exact List.forall_mem_cons.2 ⟨rfl, h⟩
  | fuel + 1, pieces, closer, h => by
    rw [close]
    split_ifs
    · exact List.forall_mem_cons.2 ⟨rfl, h⟩
    split
    · exact List.forall_mem_cons.2 ⟨rfl, h⟩
    · next after opener before hfound =>
      rw [findOpener_eq_some hfound, List.forall_mem_append, List.forall_mem_cons] at h
      obtain ⟨hafter, -, hbefore⟩ := h
      have hinside : Inline.areFormed (after.reverse.map Piece.settle) = true := by
        refine Inline.areFormed_iff.2 fun t ht => ?_
        obtain ⟨p, hp, rfl⟩ := List.mem_map.1 ht
        exact Piece.isFormed_settle (hafter p (List.mem_reverse.1 hp))
      refine formed_close fuel (List.forall_mem_cons.2 ⟨isFormed_around hinside, ?_⟩)
      exact List.forall_mem_cons.2 ⟨rfl, hbefore⟩

theorem formed_push {p : Piece} (h : ∀ p ∈ pieces, p.isFormed = true) (hp : p.isFormed = true) :
    ∀ q ∈ push pieces p, q.isFormed = true := by
  cases p with
  | token t => exact List.forall_mem_cons.2 ⟨hp, h⟩
  | run r =>
    unfold push
    dsimp only
    split_ifs
    · exact formed_close _ h
    · exact List.forall_mem_cons.2 ⟨rfl, h⟩

theorem formed_mergeTexts : ∀ {ts : List Inline}, (∀ t ∈ ts, t.isFormed = true) →
    ∀ t ∈ mergeTexts ts, t.isFormed = true := by
  intro ts h
  -- a text takes in the text after it (`case2`); all other tokens stay or are left out
  fun_induction mergeTexts ts with
  | case1 => exact h
  | case2 s r t r' hr ih =>
    rw [List.forall_mem_cons] at h
    have hmerged := ih h.2
    rw [hr, List.forall_mem_cons] at hmerged
    exact List.forall_mem_cons.2 ⟨rfl, hmerged.2⟩
  | case3 s r _ _ ih =>
    rw [List.forall_mem_cons] at h
    exact ih h.2
  | case4 s r _ _ ih =>
    rw [List.forall_mem_cons] at h
    exact List.forall_mem_cons.2 ⟨rfl, ih h.2⟩
  | case5 t r ht ih =>
    rw [List.forall_mem_cons] at h
    exact List.forall_mem_cons.2 ⟨h.1, ih h.2⟩

/-- **Pieces of well-formed tokens are resolved to well-formed tokens.** -/
theorem formed_resolve (h : ∀ p ∈ pieces, p.isFormed = true) :
    Inline.areFormed (resolve pieces) = true := by
  have hpushed : ∀ p ∈ pieces.foldl push [], p.isFormed = true :=
    List.foldlRecOn (motive := fun done : List Piece => ∀ p ∈ done, p.isFormed = true) pieces push
      (by simp) fun done hdone p hp => formed_push hdone (h p hp)
  have htokens : ∀ t ∈ (pieces.foldl push []).reverse.map Piece.settle, t.isFormed = true := by
    intro t ht
    obtain ⟨p, hp, rfl⟩ := List.mem_map.1 ht
    exact Piece.isFormed_settle (hpushed p (List.mem_reverse.1 hp))
  refine Inline.areFormed_iff.2 ?_
  unfold resolve
  dsimp only
  split_ifs
  · exact formed_mergeTexts htokens
  · exact htokens

end Emphasis

/-! ### Lines -/

/-- Whether a mark in a line is a well-formed token, if it is a token. -/
def Mark.isFormed : Mark → Bool
  | .token t => t.isFormed
  | _ => true

namespace Line

variable {scene : Scene} {marks : List Mark} {render : Render}

/-- Marks whose tokens are well formed. -/
def Formed (marks : List Mark) : Prop := ∀ m ∈ marks, m.isFormed = true

/-- A reader of whole texts that gives well-formed tokens. -/
def Render.Formed (render : Render) : Prop :=
  ∀ scene s, Inline.areFormed (render scene s) = true

theorem Formed.cons {m : Mark} (hm : m.isFormed = true) (h : Formed marks) : Formed (m :: marks) :=
  List.forall_mem_cons.2 ⟨hm, h⟩

theorem Formed.addPlain (h : Formed marks) (s : List Char) : Formed (addPlain s marks) := by
  unfold Line.addPlain
  split
  · exact Formed.cons rfl (List.forall_mem_cons.1 h).2
  · exact h.cons rfl

theorem lastOpening_eq_some {image active : Bool} {after : List Char} :
    ∀ {marks above below : List Mark}, lastOpening marks = some (above, (image, active, after), below) →
      marks = above ++ .opening image active after :: below
  | [], _, _, h => by cases h
  | m :: r, above, below, h => by
    cases m with
    | opening image active after =>
      cases h
      rfl
    | _ =>
      obtain ⟨⟨above', o, b⟩, hr, h⟩ := Option.map_eq_some_iff.1 h
      cases h
      rw [lastOpening_eq_some hr, List.cons_append]

theorem Formed.deactivate (h : Formed marks) : Formed (deactivate marks) := by
  intro m hm
  obtain ⟨m', hm', rfl⟩ := List.mem_map.1 hm
  split
  · rfl
  · exact h m' hm'

/-- Whether a destination that is a reference has a key. -/
def Destination.isNamed : Destination → Bool
  | .target _ => true
  | .reference key _ => !key.isEmpty

theorem isNamed_of_named? {label rest rest' : List Char} {d : Destination}
    (h : named? scene label rest = some (d, rest')) : d.isNamed = true := by
  obtain ⟨link, hlink, hd⟩ := Option.map_eq_some_iff.1 h
  obtain rfl := (Prod.ext_iff.1 hd).1
  unfold definition? at hlink
  dsimp only at hlink
  split_ifs at hlink with hkey
  have hfound : link.key = labelKey label := by simpa using List.find?_some hlink
  simpa [Destination.isNamed, hfound] using hkey

/-- **A reference that is found refers to something**: its key is not empty. -/
theorem isNamed_of_destination? {text rest rest' : List Char} {d : Destination}
    (h : destination? scene text rest = some (d, rest')) : d.isNamed = true := by
  have hnamed : ∀ {rest : List Char}, namedByText? scene text rest = some (d, rest') →
      d.isNamed = true := by
    intro rest h
    unfold namedByText? at h
    split_ifs at h
    exact isNamed_of_named? h
  rcases Option.or_eq_some_iff.1 h with h | ⟨-, h⟩
  · unfold targetAfter? at h
    split at h
    · obtain ⟨t, -, hd⟩ := Option.map_eq_some_iff.1 h
      obtain rfl := (Prod.ext_iff.1 hd).1
      rfl
    · cases h
  · unfold labelAfter? at h
    split at h
    · split at h
      · exact hnamed h
      · exact isNamed_of_named? h
      · exact hnamed h
    · exact hnamed h

theorem isFormed_linkToken {image : Bool} {children : List Inline}
    (h : Inline.areFormed children = true) {d : Destination} (hd : d.isNamed = true) :
    (linkToken image children d).isFormed = true := by
  cases d with
  | target t =>
    obtain ⟨address, title⟩ := t
    cases title <;> cases image <;> exact h
  | reference key label =>
    have hreference : (Inline.areTyped children && (!key.isEmpty && Inline.areKnown children)) =
        true := by
      rw [show (!key.isEmpty) = true from hd]
      exact h
    cases image <;> exact hreference

/-- **A closing bracket leaves well-formed marks**, whether it makes a link or is plain text. -/
theorem Formed.close (hr : Render.Formed render) (h : Formed marks) (rest : List Char) :
    Formed (close render scene marks rest).1 := by
  unfold Line.close
  split
  · exact h.addPlain _
  · next above image active after below hlast =>
    have hsplit := h
    rw [lastOpening_eq_some hlast, Formed, List.forall_mem_append, List.forall_mem_cons] at hsplit
    obtain ⟨habove, -, hbelow⟩ := hsplit
    have hplain : Formed (above ++ .plain (openingText image) :: below) :=
      List.forall_mem_append.2 ⟨habove, List.forall_mem_cons.2 ⟨rfl, hbelow⟩⟩
    dsimp only
    by_cases hactive : (!active) = true
    · rw [if_pos hactive]
      exact hplain.addPlain _
    rw [if_neg hactive]
    split
    · exact hplain.addPlain _
    · next d rest' hd =>
      have hchildren : ∀ (scene : Scene) (s : List Char),
          Inline.areFormed (renderSome render scene s) = true := by
        intro scene s
        unfold renderSome
        split_ifs
        · rfl
        · exact hr scene s
      refine Formed.cons (isFormed_linkToken (hchildren _ _) (isNamed_of_destination? hd)) ?_
      cases image with
      | true => exact hbelow
      | false => exact Formed.deactivate hbelow

theorem Formed.address (h : Formed marks) (url rest : List Char) :
    Formed (address scene marks url rest).1 := by
  unfold Line.address
  split
  · exact h.cons (Lexeme.isFormed_selfLink _ _ _ _)
  · exact h.addPlain _

/-- **The marks of a line are well formed**, by induction on the number of lexemes. -/
theorem formed_scan (hr : Render.Formed render) : ∀ (fuel : Nat) (scene : Scene)
    (before : Option Char) {marks : List Mark} (s : List Char), Formed marks →
      Formed (scan render scene before marks fuel s)
  | fuel, _, _, _, [], h => by
    cases fuel <;> exact h
  | 0, _, _, _, c :: s, h => h.addPlain _
  | fuel + 1, scene, before, marks, c :: s, h => by
    rw [scan]
    swap
    · exact nofun
    split
    · exact h
    · next lexeme rest hread =>
      have hlexeme := Lexeme.formed_read hread
      dsimp only
      refine formed_scan hr fuel _ _ _ ?_
      cases lexeme with
      | plain t => exact h.addPlain t
      | token t => exact h.cons hlexeme
      | address url => exact h.address url rest
      | struck t => exact h.cons (hr scene t)
      | run r => exact h.cons rfl
      | opening image => exact h.cons rfl
      | closing => exact h.close hr rest
      | anchor t opens => exact h.cons hlexeme

theorem formed_pieces : ∀ {marks : List Mark}, Formed marks → ∀ p ∈ pieces marks, p.isFormed = true
  | [], _ => by simp [pieces]
  | m :: r, h => by
    obtain ⟨hm, hr⟩ := List.forall_mem_cons.1 h
    have ih := formed_pieces hr
    cases m with
    | token t =>
      rw [pieces]
      exact List.forall_mem_cons.2 ⟨hm, ih⟩
    | run run =>
      rw [pieces]
      exact List.forall_mem_cons.2 ⟨rfl, ih⟩
    | _ =>
      rw [pieces]
      dsimp only
      split
      · next hps =>
        rw [hps, List.forall_mem_cons] at ih
        exact List.forall_mem_cons.2 ⟨rfl, ih.2⟩
      · next hps =>
        rw [hps, List.forall_mem_cons] at ih
        exact List.forall_mem_cons.2 ⟨rfl, ih.2⟩
      · exact List.forall_mem_cons.2 ⟨rfl, ih⟩

/-- **A whole text is read as well-formed tokens**, by induction on the depth to which links nest. -/
theorem formed_render : ∀ depth : Nat, Render.Formed (Line.render depth)
  | 0, _, _ => rfl
  | depth + 1, scene, s => by
    unfold Line.render
    split_ifs
    · rfl
    · have hscan : Formed (scan (Line.render depth) scene none [] s.length s) :=
        formed_scan (formed_render depth) _ _ _ _ (by simp [Formed])
      refine Emphasis.formed_resolve (formed_pieces fun m hm => hscan m (List.mem_reverse.1 hm))

end Line

theorem areFormed_inlines (scene : Scene) (s : List Char) :
    Inline.areFormed (inlines scene s) = true := Line.formed_render _ scene s

/-! ### Blocks -/

theorem isFormed_readCells (scene : Scene) (aligns : List (Option Align))
    (texts : List (List Char)) : (readCells scene aligns texts).all Cell.isFormed = true := by
  have hcell : ∀ (a : Option Align) (t : List Char),
      Cell.isFormed ⟨a.elim .null fun a => .str a.name, some (leafInlines scene t)⟩ = true := by
    intro a t
    have hcontent : Inline.areFormed (leafInlines scene t) = true := areFormed_inlines _ _
    cases a with
    | none => exact hcontent
    | some a => exact hcontent
  unfold readCells
  induction aligns generalizing texts with
  | nil => rfl
  | cons a aligns ih =>
    cases texts with
    | nil => rfl
    | cons t texts =>
      rw [List.zipWith_cons_cons, List.all_cons, hcell a t, ih texts]
      rfl

theorem isNumeral_start (start : Option ItemNumber) :
    Value.isNumeral (.int (start.elim 1 (·.val) : Nat)) = true := by
  have hlt : (start.elim 1 (·.val) : Nat) < 10 ^ 9 := by
    cases start with
    | none => decide
    | some n => exact n.isLt
  have hcount := Value.digitCount_le (n := (start.elim 1 (·.val) : Nat)) (by decide) hlt
  exact decide_eq_true (Nat.le_trans hcount (by decide))

mutual

/-- **An outline is read as a well-formed block.** -/
theorem isFormed_read (scene : Scene) : ∀ o : Outline, (Outline.read scene o).isFormed = true
  | .heading level text => areFormed_inlines _ _
  | .paragraph text => areFormed_inlines _ _
  | .code raw info => rfl
  | .quote children => areFormed_readEach scene children
  | .list ordered start items => by
    have hitems := itemsAreFormed_readItems scene items
    cases ordered with
    | true =>
      have hstart := isNumeral_start start
      rw [Block.itemsAreFormed, Bool.and_eq_true] at hitems
      simp [Outline.read, Block.isFormed, Block.isTyped, Block.isKnown, hstart, hitems]
    | false => exact hitems
  | .table aligns head rows => by
    have htyped : ∀ texts, (readCells scene aligns texts).all Cell.isTyped = true := fun texts =>
      List.all_eq_true.2 fun c hc =>
        (Bool.and_eq_true_iff.1 (List.all_eq_true.1 (isFormed_readCells scene aligns texts) c hc)).1
    have hknown : ∀ texts, (readCells scene aligns texts).all Cell.isKnown = true := fun texts =>
      List.all_eq_true.2 fun c hc =>
        (Bool.and_eq_true_iff.1 (List.all_eq_true.1 (isFormed_readCells scene aligns texts) c hc)).2
    simp [Outline.read, Block.isFormed, Block.isTyped, Block.isKnown, TablePart.rows, htyped,
      hknown]
  | .thematicBreak => rfl
  | .html raw => rfl
  | .math raw => rfl
  | .blankLine => rfl

theorem areFormed_readEach (scene : Scene) :
    ∀ os : List Outline, Block.areFormed (Outline.readEach scene os) = true
  | [] => rfl
  | o :: os => by
    rw [Outline.readEach, Block.areFormed_cons, isFormed_read scene o, areFormed_readEach scene os]
    rfl

theorem itemsAreFormed_readItems (scene : Scene) :
    ∀ items : List (List Outline), Block.itemsAreFormed (Outline.readItems scene items) = true
  | [] => rfl
  | os :: r => by
    rw [Outline.readItems, Block.itemsAreFormed_cons, areFormed_readEach scene os,
      itemsAreFormed_readItems scene r]
    rfl

end

theorem areFormed_append : ∀ {bs cs : List Block}, Block.areFormed bs = true →
    Block.areFormed cs = true → Block.areFormed (bs ++ cs) = true
  | [], _, _, hc => hc
  | b :: bs, cs, hb, hc => by
    rw [Block.areFormed_cons, Bool.and_eq_true] at hb
    rw [List.cons_append, Block.areFormed_cons, hb.1, areFormed_append hb.2 hc]
    rfl

theorem notesAreFormed_bodies (scene : Scene) : ∀ notes : List (String × List Outline),
    Block.notesAreFormed (notes.map fun (key, os) => (key, Outline.readEach scene os)) = true
  | [] => rfl
  | (key, os) :: notes => by
    rw [List.map_cons, Block.notesAreFormed_cons, areFormed_readEach scene os,
      notesAreFormed_bodies scene notes]
    rfl

/-- **The blocks of a text are well formed**, with those of its footnotes. -/
theorem areFormed_tokenize (e : Extensions) (text : String) :
    Block.areFormed (tokenize e text).blocks = true := by
  unfold tokenize
  dsimp only
  split
  · exact areFormed_readEach _ _
  · refine areFormed_append (areFormed_readEach _ _) ?_
    rw [Block.areFormed_cons, Block.isFormed_notes, notesAreFormed_bodies]
    rfl

theorem areTyped_tokenize (e : Extensions) (text : String) :
    Block.areTyped (tokenize e text).blocks = true :=
  (Bool.and_eq_true_iff.1 (areFormed_tokenize e text)).1

theorem areKnown_tokenize (e : Extensions) (text : String) :
    Block.areKnown (tokenize e text).blocks = true :=
  (Bool.and_eq_true_iff.1 (areFormed_tokenize e text)).2

end Bulletin.Markdown
