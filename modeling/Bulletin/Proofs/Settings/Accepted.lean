import Bulletin.Convert
import Bulletin.Proofs.Settings.Tables
import Mathlib

/-! # Options of the renderer that are let through

The options of the renderer stand unquoted in the tags of headings and of code, so they are checked
when they are made and whenever they are changed. The check asks for a size between two numbers and
for a font without a double quote, and what has no answer to that is refused. But a truth value and a
number with a fraction lie between numbers too, and a list or an object may lack the quote as an item
or as a key and still have it in its text. So what is let through makes proper tags just if the size
is a whole number and the font a text.

* `check_eq_ok_iff`: what is let through.
* `fit_inForce`: the options after any changes. -/

namespace Bulletin.Proofs.Settings.Accepted

open Runs Given Tables

/-! ### The check -/

/-- A size of headings that is let through: true counts as one. -/
inductive FitSize : Value → Prop
  | whole {n : Int} : 1 ≤ n → n ≤ 7 → FitSize (.int n)
  | truth : FitSize (.bool true)
  | fraction {x : Number.Binary64} : x.atLeast 1 = true → x.atMost 7 = true → FitSize (.float x)

/-- A font that is let through: a text without a quote, a list without the quote as an item, or an
object without the quote as a key. -/
inductive FitFont : Value → Prop
  | text {s : String} : s ≠ "" → '"' ∉ s.toList → FitFont (.str s)
  | list {vs : List Value} : vs ≠ [] → (∀ v ∈ vs, v.equals (.str "\"") = false) → FitFont (.list vs)
  | dict {fields : Fields} : fields ≠ [] → fields.has "\"" = false → FitFont (.dict fields)

/-- **Options that are let through.** -/
structure Fit (o : PageOptions) : Prop where
  size : FitSize o.headingSize
  font : FitFont o.font

/-- **Options that make proper tags**: the size is a whole number from 1 to 7, and the font a text
that is not empty and has no double quote. -/
structure Proper (o : PageOptions) : Prop where
  size : ∃ n : Int, o.headingSize = .int n ∧ 1 ≤ n ∧ n ≤ 7
  font : ∃ s : String, o.font = .str s ∧ s ≠ "" ∧ '"' ∉ s.toList

theorem between_iff {v : Value} : Mdast.between 1 7 v = .ok true ↔ FitSize v := by
  constructor
  · intro h
    cases v with
    | bool b =>
      cases b with
      | false => cases h
      | true => exact .truth
    | int n =>
      have hn : (decide (1 ≤ n) && decide (n ≤ 7)) = true := Except.ok.inj h
      rw [Bool.and_eq_true, decide_eq_true_eq, decide_eq_true_eq] at hn
      exact .whole hn.1 hn.2
    | float x =>
      have hx : (x.atLeast 1 && x.atMost 7) = true := Except.ok.inj h
      rw [Bool.and_eq_true] at hx
      exact .fraction hx.1 hx.2
    | _ => cases h
  · rintro (⟨hlo, hhi⟩ | _ | ⟨hlo, hhi⟩)
    · simp [Mdast.between, Value.whole?, hlo, hhi]
    · rfl
    · simp [Mdast.between, hlo, hhi]

theorem font_iff {v : Value} : v.truthy = true ∧ v.holdsQuote = .ok false ↔ FitFont v := by
  constructor
  · rintro ⟨hgiven, hquote⟩
    cases v with
    | str s =>
      have hq : s.toList.contains '"' = false := Except.ok.inj hquote
      exact .text (by simpa [Value.truthy] using hgiven) (by simpa using hq)
    | list vs =>
      have hq : (vs.any fun v => v.equals (.str "\"")) = false := Except.ok.inj hquote
      refine .list (by simpa [Value.truthy] using hgiven) fun v hv => ?_
      simpa using List.any_eq_false.1 hq v hv
    | dict fields => exact .dict (by simpa [Value.truthy] using hgiven) (Except.ok.inj hquote)
    | _ => cases hquote
  · rintro (⟨hgiven, hquote⟩ | ⟨hgiven, hquote⟩ | ⟨hgiven, hquote⟩)
    · exact ⟨by simpa [Value.truthy] using hgiven, by simpa [Value.holdsQuote] using hquote⟩
    · refine ⟨by simpa [Value.truthy] using hgiven, congrArg Except.ok (List.any_eq_false.2 ?_)⟩
      exact fun v hv => by simp [hquote v hv]
    · exact ⟨by simpa [Value.truthy] using hgiven, congrArg Except.ok hquote⟩

/-- **What the check lets through.** -/
theorem check_eq_ok_iff {o : PageOptions} : o.check = .ok () ↔ Fit o := by
  have hfit : Fit o ↔ Mdast.between 1 7 o.headingSize = .ok true ∧
      o.font.truthy = true ∧ o.font.holdsQuote = .ok false := by
    rw [between_iff, font_iff]
    exact ⟨fun h => ⟨h.size, h.font⟩, fun h => ⟨h.1, h.2⟩⟩
  rw [hfit, PageOptions.check]
  rcases Mdast.between 1 7 o.headingSize with _ | _ | _
  · exact ⟨nofun, nofun⟩
  · exact ⟨nofun, nofun⟩
  · cases o.font.truthy
    · exact ⟨nofun, nofun⟩
    · rcases o.font.holdsQuote with _ | _ | _
      · exact ⟨nofun, nofun⟩
      · exact ⟨fun _ => ⟨rfl, rfl, rfl⟩, fun _ => rfl⟩
      · exact ⟨nofun, nofun⟩

/-- Options that are let through make proper tags if their values are of the types asked for. -/
theorem Fit.proper_iff {o : PageOptions} (h : Fit o) :
    Proper o ↔ (∃ n, o.headingSize = .int n) ∧ ∃ s, o.font = .str s := by
  constructor
  · rintro ⟨⟨n, hn, -⟩, s, hs, -⟩
    exact ⟨⟨n, hn⟩, s, hs⟩
  · rintro ⟨⟨n, hn⟩, s, hs⟩
    obtain ⟨hsize, hfont⟩ := h
    rw [hn] at hsize
    rw [hs] at hfont
    cases hsize with
    | whole hlo hhi =>
      cases hfont with
      | text hne hq => exact ⟨⟨n, hn, hlo, hhi⟩, s, hs, hne, hq⟩

/-! ### Changes -/

/-- **The options in force after changes**, of which one that is refused leaves them as they are. -/
def inForce (o : Options) (changes : List Fields) : Options :=
  changes.foldl (fun o change => (o.update change).toOption.getD o) o

/-- **Options as they are made**: from values that are given, or from a configuration with overrides
over it. -/
inductive Made : PageOptions → Prop
  | given {given : Fields} {o : PageOptions} : Options.build .page given = .ok (.page o) → Made o
  | configured {config : Fields} {overrides : Table → Fields} {s : Settings}
      {log log' : List Record} : Settings.ofConfig config overrides log = (.ok s, log') → Made s.page

theorem inForce_concat (o : Options) (changes : List Fields) (change : Fields) :
    inForce o (changes ++ [change]) =
      ((inForce o changes).update change).toOption.getD (inForce o changes) := by
  rw [inForce, List.foldl_append]
  rfl

/-- One change keeps the options let through. -/
theorem fit_of_update {o : Options} {p : PageOptions} {changes : Fields}
    (h : o.update changes = .ok (.page p)) : Fit p := check_eq_ok_iff.1 (update_eq_ok_iff.1 h).2

theorem exists_page {o : Options} (h : o.kind = .page) : ∃ p, o = .page p := by
  cases o with
  | page p => exact ⟨p, rfl⟩
  | _ => cases h

theorem Made.fit {o : PageOptions} (h : Made o) : Fit o := by
  cases h with
  | given h => exact fit_of_update h
  | configured h =>
    obtain ⟨fields, -, hbuild⟩ := except_bind_eq_ok.1 ((ofConfig_eq_ok_iff.1 h).1 .page)
    exact fit_of_update (except_mapError_eq_ok.1 hbuild)

theorem made_of_fit {o : PageOptions} (h : Fit o) : Made o := by
  have hnames : ∀ p ∈ (Options.page o).fields, p.1 ∈ Options.fieldNames .page := by
    simp [Options.fields, Options.fieldNames, Options.default]
  have hbuild : Options.build .page (Options.page o).fields = .ok (.page o) :=
    update_eq_ok_iff.2 ⟨⟨hnames, rfl, rfl⟩, check_eq_ok_iff.2 h⟩
  exact .given hbuild

/-- **A run of changes keeps the options let through.** -/
theorem fit_inForce {o : PageOptions} (h : Fit o) (changes : List Fields) :
    ∃ p, inForce (.page o) changes = .page p ∧ Fit p := by
  induction changes generalizing o with
  | nil => exact ⟨o, rfl, h⟩
  | cons change changes ih =>
    cases hu : (Options.page o).update change with
    | error why =>
      rw [inForce, List.foldl_cons, hu]
      exact ih h
    | ok o' =>
      obtain ⟨p, rfl⟩ := exists_page (update_eq_ok_iff.1 hu).1.2.1
      rw [inForce, List.foldl_cons, hu]
      exact ih (fit_of_update hu)

/-- **The options after any changes**: whatever they are made of, and however often they are changed,
they are let through; they make proper tags just if their values are of the types asked for; and a
change that is refused leaves them in force. -/
theorem options_in_force {start : PageOptions} (hstart : Made start) (changes : List Fields) :
    (∀ o, Made o ↔ Fit o) ∧
    ∃ o, inForce (.page start) changes = .page o ∧ Fit o ∧
      (Proper o ↔ (∃ n, o.headingSize = .int n) ∧ ∃ s, o.font = .str s) ∧
      ∀ change,
        (∀ why, (Options.page o).update change = .error why →
          inForce (.page start) (changes ++ [change]) = .page o) ∧
        ∀ o', (Options.page o).update change = .ok o' →
          inForce (.page start) (changes ++ [change]) = o' := by
  refine ⟨fun o => ⟨Made.fit, made_of_fit⟩, ?_⟩
  obtain ⟨o, ho, hfit⟩ := fit_inForce hstart.fit changes
  refine ⟨o, ho, hfit, hfit.proper_iff, fun change => ⟨fun why hwhy => ?_, fun o' ho' => ?_⟩⟩
  · rw [inForce_concat, ho, hwhy]
    rfl
  · rw [inForce_concat, ho, ho']
    rfl

/-- A configuration with a size of headings, and with options and tables that there are not. -/
def sizedConfig : Fields :=
  [("pdf", .null), ("nexus", .dict [("colour", .str "red"), ("heading_size", .int 2)])]

/-- Overrides that name a font. -/
def fontOverrides : Table → Fields
  | .page => [("monospace_font", .str "Fira Code")]
  | _ => []

/-- Changes of which the first and the third are refused. -/
def triedChanges : List Fields :=
  [[("heading_size", .int 12)], [("heading_size", .int 7)],
    [("heading_size", .int 3), ("monospace_font", .str "a\"b")]]

theorem options_in_force_tried :
    Made ⟨.str "Fira Code", .int 2⟩ ∧
    inForce (.page ⟨.str "Fira Code", .int 2⟩) triedChanges = .page ⟨.str "Fira Code", .int 7⟩ ∧
    Proper ⟨.str "Fira Code", .int 7⟩ := by
  have hmade : Made ⟨.str "Fira Code", .int 2⟩ := by
    have hs : Settings.ofConfig sizedConfig fontOverrides [] =
        (.ok { page := ⟨.str "Fira Code", .int 2⟩ }, [] ++ tableWarnings sizedConfig ++
          Table.all.flatMap (optionWarnings sizedConfig)) :=
      ofConfig_eq_ok_iff.2 ⟨fun t => by cases t <;> rfl, rfl⟩
    exact .configured hs
  have hrun : inForce (.page ⟨.str "Fira Code", .int 2⟩) triedChanges =
      .page ⟨.str "Fira Code", .int 7⟩ := by cbv
  obtain ⟨o, ho, -, hproper, -⟩ := (options_in_force hmade triedChanges).2
  obtain rfl : o = ⟨.str "Fira Code", .int 7⟩ := Options.page.inj (ho.symm.trans hrun)
  exact ⟨hmade, hrun, hproper.2 ⟨⟨7, rfl⟩, _, rfl⟩⟩

/-- **Values of other types are let through**: a configuration gives a font that is a list with a
quote in its only item; and a size may be a truth value, which stands as a word in the tag of a
heading. -/
theorem quoted_font_let_through :
    (∃ s, Settings.ofConfig [("nexus", .dict [("monospace_font", .list [.str "a\"b"])])]
        (fun _ => []) [] = (.ok s, []) ∧ ¬ Proper s.page) ∧
    ∃ o, Options.build .page [("heading_size", .bool true)] = .ok (.page o) ∧ ¬ Proper o ∧
      (Page.render o (.container .root [.branch (.heading (.int 1)) [.literal .text (.str "T")]
        none]) []).1 = .ok "[size=True]T[/size]" := by
  refine ⟨⟨{ page := ⟨.list [.str "a\"b"], .int 5⟩ }, ?_, ?_⟩,
    ⟨.str "Courier", .bool true⟩, by cbv, ?_, by cbv⟩
  · exact ofConfig_eq_ok_iff.2 ⟨fun t => by cases t <;> cbv, rfl⟩
  · rintro ⟨-, s, hs, -⟩
    cases hs
  · rintro ⟨⟨n, hn, -⟩, -⟩
    cases hn

end Bulletin.Proofs.Settings.Accepted
