import Bulletin.Proofs.Settings.Tables
import Mathlib.Logic.Relation

/-! # Which value an option gets

An option gets the override for it if one is given, else the value in the table of the configuration,
else its default. What is not known in a configuration is reported and has no other effect: a table or
an option that there is not may be added, taken away or put elsewhere. The tables are taken in their
order, and the first that is refused, because it is no table or because its values are, decides what a
configuration is refused with.

* `fields_of_decided`: what the options of a table hold.
* `decided_of_edit`: what is not known has no say in the options of a table.
* `ofConfig_precedence`: the facts on a configuration together. -/

namespace Bulletin.Proofs.Settings.Precedence

open Runs Given Tables

variable {config config' : Fields} {overrides : Table → Fields} {t : Table}

/-- **The value that counts for an option**: the override for it, else the value of the
configuration, else the default. -/
def chosen (config : Fields) (overrides : Table → Fields) (t : Table) (key : String) : Value :=
  (((overrides t).get? key).or ((tableOf config t).get? key)).getD
    ((Options.default t.kind).fields.getD key)

/-! ### The options of a table -/

theorem get?_known {fields : Fields} {key : String} (h : key ∈ Options.fieldNames t.kind) :
    (known t fields).get? key = fields.get? key := by
  induction fields with
  | nil => rfl
  | cons p r ih =>
    obtain ⟨k, v⟩ := p
    rw [known, List.filter_cons]
    by_cases hk : key = k
    · rw [← hk, if_pos (by simpa using h), get?_cons_self, get?_cons_self]
    · rw [get?_cons_of_ne hk, ← ih]
      split_ifs
      · exact get?_cons_of_ne hk
      · rfl

theorem nodup_tableOf (h : (Value.dict config).Keyed) (t : Table) :
    ((tableOf config t).map Prod.fst).Nodup := by
  cases hv : config.get? t.name with
  | none =>
    rw [tableOf, hv]
    exact .nil
  | some v =>
    cases v with
    | dict fields =>
      have hmem : (t.name, Value.dict fields) ∈ config := by
        obtain ⟨before, after, rfl, -⟩ := List.lookup_eq_some_iff.1 hv
        simp
      rw [tableOf, hv]
      exact (Value.keyed_dict.1 ((Value.keyed_dict.1 h).2 _ hmem)).1
    | _ =>
      rw [tableOf, hv]
      exact .nil

theorem nodup_merged {fields : Fields} (h : (fields.map Prod.fst).Nodup) :
    ((merged overrides t fields).map Prod.fst).Nodup :=
  Fields.nodup_foldl_set _ (h.sublist (List.filter_sublist.map Prod.fst))

/-- **What the options of a table hold** is what counts for each of them. -/
theorem fields_of_decided {o : Options} (hconfig : (Value.dict config).Keyed)
    (hoverrides : ∀ t, ((overrides t).map Prod.fst).Nodup)
    (h : decided config overrides t = .ok o) :
    o.fields = (Options.fieldNames t.kind).map fun key => (key, chosen config overrides t key) := by
  obtain ⟨fields, htable, hbuild⟩ := except_bind_eq_ok.1 h
  obtain rfl : fields = tableOf config t := by
    rcases table_cases config t with hok | ⟨v, -, -, herror⟩
    · exact Except.ok.inj (htable.symm.trans hok)
    · rw [herror] at htable
      cases htable
  rw [fields_build (nodup_merged (nodup_tableOf hconfig t)) (except_mapError_eq_ok.1 hbuild)]
  refine List.map_congr_left fun key hkey => ?_
  rw [merged, get?_merge (hoverrides t), get?_known hkey]
  rfl

/-! ### What is refused -/

/-- **What a table is refused with**: that it is none, or that its values, with the overrides over
them, are refused as options of their kind. -/
inductive Refused (config : Fields) (overrides : Table → Fields) (t : Table) : Failure → Prop
  | noTable {v : Value} : config.get? t.name = some v → v.fields? = none →
      Refused config overrides t (noTable t v)
  | values {fields : Fields} {why : OptionsFault} : Settings.table config t = .ok fields →
      Options.build t.kind (merged overrides t fields) = .error why →
        Refused config overrides t (.settings t.name why)

theorem decided_eq_error_iff {f : Failure} :
    decided config overrides t = .error f ↔ Refused config overrides t f := by
  constructor
  · intro h
    rcases table_cases config t with hok | ⟨v, hv, hnone, herror⟩
    · rw [decided_of_table hok] at h
      cases hbuild : Options.build t.kind (merged overrides t (tableOf config t)) with
      | error why =>
        rw [hbuild] at h
        cases h
        exact .values hok hbuild
      | ok o =>
        rw [hbuild] at h
        cases h
    · rw [decided, herror] at h
      cases h
      exact .noTable hv hnone
  · intro h
    cases h with
    | @noTable v hv hnone =>
      have herror : Settings.table config t = .error (noTable t v) := by
        rw [table_eq, hv]
        cases v with
        | dict fields => cases hnone
        | _ => rfl
      rw [decided, herror]
      rfl
    | values hok hbuild =>
      rw [decided_of_table hok, hbuild]
      rfl

theorem exists_decided_iff :
    (∃ o, decided config overrides t = .ok o) ↔ ∀ f, ¬ Refused config overrides t f := by
  constructor
  · rintro ⟨o, ho⟩ f hf
    rw [decided_eq_error_iff.2 hf] at ho
    cases ho
  · intro h
    cases hd : decided config overrides t with
    | error f => exact absurd (decided_eq_error_iff.1 hd) (h f)
    | ok o => exact ⟨o, rfl⟩

/-! ### What is not known -/

/-- **A change of what is not known**: a table of an unknown name is added, or an option of an
unknown name in a table; a table that is empty is as good as none. -/
inductive Edit : Fields → Fields → Prop
  | table {before after : Fields} {name : String} {v : Value} : Table.ofName? name = none →
      Edit (before ++ after) (before ++ (name, v) :: after)
  | option {before after first last : Fields} {t : Table} {key : String} {v : Value} :
      key ∉ Options.fieldNames t.kind →
        Edit (before ++ (t.name, .dict (first ++ last)) :: after)
          (before ++ (t.name, .dict (first ++ (key, v) :: last)) :: after)
  | empty {before after : Fields} {t : Table} : after.get? t.name = none →
      Edit (before ++ after) (before ++ (t.name, .dict []) :: after)

/-- The known values of a table, or the failure of one that is none. -/
def view (config : Fields) (t : Table) : Except Failure Fields :=
  (Settings.table config t).map (known t)

theorem decided_eq (config : Fields) (overrides : Table → Fields) (t : Table) :
    decided config overrides t = view config t >>= fun values =>
      (Options.build t.kind (Settings.merge values (overrides t))).mapError (.settings t.name) := by
  rw [decided, view]
  cases Settings.table config t <;> rfl

theorem view_congr {config config' : Fields} (h : config.get? t.name = config'.get? t.name) :
    view config t = view config' t := by
  rw [view, view, table_eq, table_eq, h]

/-- What comes later in a configuration counts only by its view. -/
theorem view_append {rest rest' : Fields} (before : Fields) (h : view rest t = view rest' t) :
    view (before ++ rest) t = view (before ++ rest') t := by
  cases hv : before.get? t.name with
  | none =>
    have hskip : ∀ rest : Fields, view (before ++ rest) t = view rest t := fun rest =>
      view_congr (by rw [get?_append, hv, Option.none_or])
    rw [hskip, hskip, h]
  | some v => exact view_congr (by rw [get?_append, get?_append, hv, Option.some_or, Option.some_or])

theorem name_injective : Function.Injective Table.name := by
  intro t u
  cases t <;> cases u <;> decide

theorem ofName?_name (t : Table) : Table.ofName? t.name = some t := by
  cases t <;> decide

/-- **What is not known has no say in a table.** -/
theorem view_of_edit (h : Edit config config') (t : Table) : view config t = view config' t := by
  cases h with
  | @table before after name v hname =>
    refine view_append before (view_congr (get?_cons_of_ne ?_).symm)
    rintro rfl
    rw [ofName?_name] at hname
    cases hname
  | @option before after first last u key v hkey =>
    refine view_append before ?_
    by_cases htu : t.name = u.name
    · obtain rfl := name_injective htu
      have hunknown : (Options.fieldNames t.kind).contains key = false := by simpa using hkey
      rw [view, view, table_eq, table_eq, get?_cons_self, get?_cons_self]
      simp only [Except.map, known, List.filter_append, List.filter_cons, hunknown, Bool.false_eq_true,
        if_false]
    · exact view_congr (by rw [get?_cons_of_ne htu, get?_cons_of_ne htu])
  | @empty before after u hnone =>
    refine view_append before ?_
    by_cases htu : t.name = u.name
    · obtain rfl := name_injective htu
      rw [view, view, table_eq, table_eq, get?_cons_self, hnone]
    · exact view_congr (get?_cons_of_ne htu).symm

/-- Changes of what is not known leave the options of a table as they are. -/
theorem decided_of_edits (h : Relation.EqvGen Edit config config') (t : Table) :
    decided config overrides t = decided config' overrides t := by
  have hview : view config t = view config' t := by
    induction h with
    | rel config config' h => exact view_of_edit h t
    | refl config => rfl
    | symm config config' _ ih => exact ih.symm
    | trans config config' config'' _ _ ih ih' => exact ih.trans ih'
  rw [decided_eq, decided_eq, hview]

/-! ### A configuration -/

/-- **What a configuration comes to**: if it is taken, every option has the value that counts for it,
and there is one warning for each table and for each option that is not known; changes of what is not
known change nothing but the warnings; and it is refused just if one of its tables is, with what the
first such table is refused with. -/
theorem ofConfig_precedence (hconfig : (Value.dict config).Keyed)
    (hoverrides : ∀ t, ((overrides t).map Prod.fst).Nodup) (log : List Record) :
    (∀ s log', Settings.ofConfig config overrides log = (.ok s, log') →
      (∀ t, (optionsOf s t).fields =
        (Options.fieldNames t.kind).map fun key => (key, chosen config overrides t key)) ∧
      log' = log ++ tableWarnings config ++ Table.all.flatMap (optionWarnings config)) ∧
    (∀ config', Relation.EqvGen Edit config config' →
      (Settings.ofConfig config' overrides log).1 = (Settings.ofConfig config overrides log).1) ∧
    ∀ f log', Settings.ofConfig config overrides log = (.error f, log') ↔
      ∃ earlier t later, Table.all = earlier ++ t :: later ∧
        (∀ u ∈ earlier, ∀ g, ¬ Refused config overrides u g) ∧ Refused config overrides t f ∧
        log' = log ++ tableWarnings config ++ (earlier ++ [t]).flatMap (optionWarnings config) := by
  refine ⟨fun s log' h => ?_, fun config' hedits => ?_, fun f log' => ?_⟩
  · obtain ⟨hdecided, hlog⟩ := ofConfig_eq_ok_iff.1 h
    exact ⟨fun t => fields_of_decided hconfig hoverrides (hdecided t), hlog⟩
  · have hdecided : ∀ t, decided config overrides t = decided config' overrides t :=
      decided_of_edits hedits
    rcases h : Settings.ofConfig config overrides log with ⟨f | s, log'⟩
    · obtain ⟨earlier, t, later, hall, hearlier, ht, -⟩ := ofConfig_eq_error_iff.1 h
      have h' : Settings.ofConfig config' overrides log = (.error f,
          log ++ tableWarnings config' ++ (earlier ++ [t]).flatMap (optionWarnings config')) :=
        ofConfig_eq_error_iff.2 ⟨earlier, t, later, hall,
          fun u hu => hdecided u ▸ hearlier u hu, hdecided t ▸ ht, rfl⟩
      rw [h']
    · obtain ⟨hall, -⟩ := ofConfig_eq_ok_iff.1 h
      have h' : Settings.ofConfig config' overrides log = (.ok s,
          log ++ tableWarnings config' ++ Table.all.flatMap (optionWarnings config')) :=
        ofConfig_eq_ok_iff.2 ⟨fun t => hdecided t ▸ hall t, rfl⟩
      rw [h']
  · simp only [ofConfig_eq_error_iff, exists_decided_iff, decided_eq_error_iff]

/-- A configuration with values for three options, and with a table and an option that there are
not. -/
def layeredConfig : Fields :=
  [("pdf", .dict []), ("mdast", .dict [("strict_mode", .bool false)]),
    ("nexus", .dict [("colour", .str "red"), ("monospace_font", .str "Consolas"),
      ("heading_size", .int 2)])]

/-- The same without what is not known, in another order. -/
def bareConfig : Fields :=
  [("mdast", .dict [("strict_mode", .bool false)]),
    ("nexus", .dict [("monospace_font", .str "Consolas"), ("heading_size", .int 2)])]

/-- A configuration in which two tables are none. -/
def brokenConfig : Fields := [("nexus", .int 3), ("mdast", .list [])]

/-- Overrides for the font. -/
def layeredOverrides : Table → Fields
  | .page => [("monospace_font", .str "Fira Code")]
  | _ => []

theorem ofConfig_precedence_layered :
    (Value.dict layeredConfig).Keyed ∧ (Value.dict brokenConfig).Keyed ∧
    (∀ t, ((layeredOverrides t).map Prod.fst).Nodup) ∧
    Relation.EqvGen Edit layeredConfig bareConfig ∧
    (∃ s, Settings.ofConfig layeredConfig layeredOverrides [] = (.ok s, [
        ⟨.warning, .configuration, "Ignoring unknown config section [pdf]"⟩,
        ⟨.warning, .configuration, "Ignoring unknown option 'colour' in config section [nexus]"⟩]) ∧
      (Settings.ofConfig bareConfig layeredOverrides []).1 = .ok s ∧
      (optionsOf s .tree).fields = [("strict_mode", .bool false)] ∧
      (optionsOf s .page).fields =
        [("monospace_font", .str "Fira Code"), ("heading_size", .int 2)]) ∧
    Settings.ofConfig brokenConfig layeredOverrides [] = (.error (noTable .tree (.list [])), []) := by
  have hlayered : (Value.dict layeredConfig).Keyed := by decide
  have hbroken : (Value.dict brokenConfig).Keyed := by decide
  have hoverrides : ∀ t, ((layeredOverrides t).map Prod.fst).Nodup := by
    intro t
    cases t <;> decide
  have hedits : Relation.EqvGen Edit layeredConfig bareConfig := by
    have hcolour : Edit bareConfig [("mdast", .dict [("strict_mode", .bool false)]),
        ("nexus", .dict [("colour", .str "red"), ("monospace_font", .str "Consolas"),
          ("heading_size", .int 2)])] :=
      @Edit.option [_] [] [] _ .page "colour" (.str "red") (by decide)
    have hpdf : Edit _ layeredConfig := @Edit.table [] _ "pdf" (.dict []) (by decide)
    exact .symm _ _ (.trans _ _ _ (.rel _ _ hcolour) (.rel _ _ hpdf))
  obtain ⟨htaken, hsame, -⟩ := ofConfig_precedence hlayered hoverrides []
  have hs : Settings.ofConfig layeredConfig layeredOverrides [] =
      (.ok { tree := ⟨.bool false⟩, page := ⟨.str "Fira Code", .int 2⟩ }, _) :=
    ofConfig_eq_ok_iff.2 ⟨fun t => by cases t <;> rfl, rfl⟩
  refine ⟨hlayered, hbroken, hoverrides, hedits, ⟨_, hs, ?_, ?_, ?_⟩, ?_⟩
  · rw [hsame _ hedits, hs]
  · rw [(htaken _ _ hs).1 .tree]
    rfl
  · rw [(htaken _ _ hs).1 .page]
    rfl
  · refine ((ofConfig_precedence hbroken hoverrides []).2.2 _ _).2
      ⟨[.markdown], .tree, [.page], rfl, ?_, .noTable rfl rfl, rfl⟩
    intro u hu
    obtain rfl := List.mem_singleton.1 hu
    exact exists_decided_iff.1 ⟨_, rfl⟩

end Bulletin.Proofs.Settings.Precedence
