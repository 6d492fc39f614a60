import Bulletin.Proofs.Settings.Given

/-! # The tables of a configuration

The tables are read one after the other. What a table comes to does not depend on the records before
it, nor on the tables before it: its options are decided by its known values and by the overrides for
it (`decided`), and its unknown ones are reported, one by one. The first table that is refused ends
the reading, so that what comes after it is neither read nor reported.

* `build_run`: what one table comes to, and what it reports.
* `ofConfig_eq_ok_iff`, `ofConfig_eq_error_iff`: what a configuration comes to. -/

namespace Bulletin.Proofs.Settings.Tables

open Bulletin.Settings Runs Given

variable {config : Fields} {overrides : Table → Fields} {t : Table} {s s' : Settings}
  {log log' : List Record}

/-! ### One table -/

/-- The fields under the name of a table, none if there is no table of that name. -/
def tableOf (config : Fields) (t : Table) : Fields :=
  ((config.get? t.name).bind Value.fields?).getD []

/-- The fields of a table that are for its options. -/
def known (t : Table) (fields : Fields) : Fields :=
  fields.filter fun p => (Options.fieldNames t.kind).contains p.1

/-- The fields of a table that are for no option. -/
def unknown (t : Table) (fields : Fields) : Fields :=
  fields.filter fun p => !(Options.fieldNames t.kind).contains p.1

/-- The values that count for a table: those of its options, with the overrides over them. -/
def merged (overrides : Table → Fields) (t : Table) (fields : Fields) : Fields :=
  merge (known t fields) (overrides t)

/-- **The options that a table comes to.** -/
def decided (config : Fields) (overrides : Table → Fields) (t : Table) : Except Failure Options := do
  let fields ← table config t
  (Options.build t.kind (merged overrides t fields)).mapError (.settings t.name)

/-- The warning about a field that is for no option. -/
def optionWarning (t : Table) (key : String) : Record :=
  ⟨.warning, .configuration, s!"Ignoring unknown option '{key}' in config section [{t.name}]"⟩

/-- The warnings about a table, one for each field that is for no option. -/
def optionWarnings (config : Fields) (t : Table) : List Record :=
  (unknown t (tableOf config t)).map fun p => optionWarning t p.1

/-- The failure for a table that is none. -/
def noTable (t : Table) (v : Value) : Failure :=
  .argument s!"Config section [{t.name}] must be a table, got {v.typeName}"

theorem table_eq (config : Fields) (t : Table) : table config t =
    match config.get? t.name with
    | none => .ok []
    | some (.dict fields) => .ok fields
    | some v => .error (noTable t v) := by
  unfold table
  cases config.get? t.name with
  | none => rfl
  | some v => cases v <;> rfl

/-- **A table is read unless something else stands under its name.** -/
theorem table_cases (config : Fields) (t : Table) : table config t = .ok (tableOf config t) ∨
    ∃ v, config.get? t.name = some v ∧ v.fields? = none ∧ table config t = .error (noTable t v) := by
  rw [table_eq, tableOf]
  cases hv : config.get? t.name with
  | none => exact .inl rfl
  | some v =>
    cases v with
    | dict fields => exact .inl rfl
    | _ => exact .inr ⟨_, rfl, rfl, rfl⟩

theorem knownValues_run (t : Table) (fields : Fields) (log : List Record) :
    knownValues t fields log =
      (.ok (known t fields), log ++ (unknown t fields).map fun p => optionWarning t p.1) := by
  induction fields generalizing log with
  | nil => exact Prod.ext rfl (List.append_nil log).symm
  | cons p r ih =>
    obtain ⟨key, v⟩ := p
    rw [knownValues, known, unknown, List.filter_cons, List.filter_cons]
    by_cases hkey : (Options.fieldNames t.kind).contains key = true
    · rw [if_pos hkey, if_pos hkey, if_neg (by simpa using hkey), bind_ok (ih log)]
      rfl
    · have hreport : (Logged.report .warning .configuration
          s!"Ignoring unknown option '{key}' in config section [{t.name}]" : Logged Failure Unit) log =
          (.ok (), log ++ [optionWarning t key]) := rfl
      rw [if_neg hkey, if_neg hkey, if_pos (by simpa using hkey), bind_ok hreport, ih,
        List.map_cons, List.append_assoc]
      rfl

/-- **What one table comes to, and what it reports.** -/
theorem build_run (config : Fields) (overrides : Table → Fields) (t : Table) (log : List Record) :
    build config overrides t log =
      (decided config overrides t, log ++ optionWarnings config t) := by
  have hvalues : values config t log = ((table config t).map (known t),
      log ++ optionWarnings config t) := by
    rcases table_cases config t with h | ⟨v, hv, hnone, h⟩
    · rw [values, bind_ok (lift_eq_ok.2 ⟨h, rfl⟩), knownValues_run, h]
      rfl
    · have hlift : Logged.lift (table config t) log = (.error (noTable t v), log) := by
        rw [h]
        rfl
      have hwarnings : optionWarnings config t = [] := by
        rw [optionWarnings, tableOf, hv, Option.bind_some, hnone]
        rfl
      rw [values, bind_error hlift, h, hwarnings, List.append_nil]
      rfl
  rw [build, decided]
  cases h : table config t with
  | error f =>
    rw [h] at hvalues
    exact bind_error hvalues
  | ok fields =>
    rw [h] at hvalues
    exact bind_ok hvalues

theorem decided_of_table {fields : Fields} (h : table config t = .ok fields) :
    decided config overrides t =
      (Options.build t.kind (merged overrides t fields)).mapError (.settings t.name) := by
  rw [decided, h]
  rfl

theorem kind_of_decided {o : Options} (h : decided config overrides t = .ok o) : o.kind = t.kind := by
  obtain ⟨fields, -, hbuild⟩ := except_bind_eq_ok.1 h
  rw [(update_eq_ok_iff.1 (except_mapError_eq_ok.1 hbuild)).1.2.1, kind_default]

/-! ### All tables -/

/-- The options of settings that a table sets. -/
def optionsOf (s : Settings) : Table → Options
  | .markdown => .markdown s.markdown
  | .tree => .tree s.tree
  | .page => .page s.page

theorem eq_of_optionsOf (h : ∀ t, optionsOf s t = optionsOf s' t) : s = s' := by
  obtain ⟨m, tr, p⟩ := s
  obtain ⟨m', tr', p'⟩ := s'
  obtain rfl : m = m' := Options.markdown.inj (h .markdown)
  obtain rfl : tr = tr' := Options.tree.inj (h .tree)
  obtain rfl : p = p' := Options.page.inj (h .page)
  rfl

theorem optionsOf_put_self {o : Options} (h : o.kind = t.kind) : optionsOf (s.put o) t = o := by
  cases t <;> cases o <;> first | rfl | cases h

theorem optionsOf_put_of_ne {o : Options} {u : Table} (h : o.kind = t.kind) (hne : u ≠ t) :
    optionsOf (s.put o) u = optionsOf s u := by
  cases t <;> cases u <;> first | exact absurd rfl hne | (cases o <;> first | rfl | cases h)

/-- The reading of tables one after the other, from settings that there are. -/
abbrev gather (config : Fields) (overrides : Table → Fields) (ts : List Table) (s : Settings) :
    Logged Failure Settings :=
  ts.foldlM (fun s t => return s.put (← build config overrides t)) s

theorem gather_cons (t : Table) (ts : List Table) (s : Settings) (log : List Record) :
    gather config overrides (t :: ts) s log =
      match decided config overrides t with
      | .error f => (.error f, log ++ optionWarnings config t)
      | .ok o => gather config overrides ts (s.put o) (log ++ optionWarnings config t) := by
  have hrun := build_run config overrides t log
  rw [gather, List.foldlM_cons]
  cases h : decided config overrides t with
  | error f =>
    rw [h] at hrun
    exact bind_error (bind_error hrun)
  | ok o =>
    rw [h] at hrun
    exact bind_ok (bind_ok hrun)

/-- **Tables are taken if each of them is**, and each is reported on in its turn. -/
theorem gather_eq_ok_iff : ∀ {ts : List Table}, ts.Nodup → ∀ {s log},
    gather config overrides ts s log = (.ok s', log') ↔
      (∀ t ∈ ts, decided config overrides t = .ok (optionsOf s' t)) ∧
      (∀ t, t ∉ ts → optionsOf s' t = optionsOf s t) ∧
      log' = log ++ ts.flatMap (optionWarnings config)
  | [], _, s, log => by
    refine pure_eq_ok.trans ⟨?_, ?_⟩
    · rintro ⟨rfl, rfl⟩
      exact ⟨nofun, fun _ _ => rfl, (List.append_nil log).symm⟩
    · rintro ⟨-, h, rfl⟩
      exact ⟨(eq_of_optionsOf fun t => h t List.not_mem_nil).symm, (List.append_nil log).symm⟩
  | t :: ts, hnodup, s, log => by
    obtain ⟨ht, hts⟩ := List.nodup_cons.1 hnodup
    rw [gather_cons, List.forall_mem_cons, List.flatMap_cons, ← List.append_assoc]
    cases hd : decided config overrides t with
    | error f => exact ⟨nofun, fun h => nomatch h.1.1⟩
    | ok o =>
      have hself : optionsOf (s.put o) t = o := optionsOf_put_self (kind_of_decided hd)
      have hother : ∀ u, u ≠ t → optionsOf (s.put o) u = optionsOf s u := fun u =>
        optionsOf_put_of_ne (kind_of_decided hd)
      refine (gather_eq_ok_iff hts).trans ⟨?_, ?_⟩
      · rintro ⟨hin, hout, hlog⟩
        refine ⟨⟨by rw [hout t ht, hself], hin⟩, fun u hu => ?_, hlog⟩
        obtain ⟨hne, hu⟩ := not_or.1 (mt List.mem_cons.2 hu)
        rw [hout u hu, hother u hne]
      · rintro ⟨⟨ho, hin⟩, hout, hlog⟩
        refine ⟨hin, fun u hu => ?_, hlog⟩
        by_cases hne : u = t
        · rw [hne, hself, ← Except.ok.inj ho]
        · rw [hother u hne]
          exact hout u fun hmem => (List.mem_cons.1 hmem).elim hne hu

/-- **The first table that is refused decides**, and no table after it is reported on. -/
theorem gather_eq_error_iff {f : Failure} : ∀ {ts : List Table} {s log},
    gather config overrides ts s log = (.error f, log') ↔
      ∃ earlier t later, ts = earlier ++ t :: later ∧
        (∀ u ∈ earlier, ∃ o, decided config overrides u = .ok o) ∧
        decided config overrides t = .error f ∧
        log' = log ++ (earlier ++ [t]).flatMap (optionWarnings config)
  | [], s, log => by
    refine ⟨nofun, ?_⟩
    rintro ⟨earlier, t, later, h, -⟩
    simp at h
  | t :: ts, s, log => by
    rw [gather_cons]
    cases hd : decided config overrides t with
    | error g =>
      constructor
      · rintro ⟨⟩
        exact ⟨[], t, ts, rfl, nofun, hd, by simp⟩
      · rintro ⟨earlier, u, later, h, hearlier, hu, rfl⟩
        cases earlier with
        | nil =>
          obtain ⟨rfl, rfl⟩ := List.cons.inj h
          obtain rfl : g = f := Except.error.inj (hd.symm.trans hu)
          simp
        | cons t' earlier =>
          obtain ⟨rfl, -⟩ := List.cons.inj h
          obtain ⟨o, ho⟩ := hearlier t List.mem_cons_self
          rw [hd] at ho
          cases ho
    | ok o =>
      refine gather_eq_error_iff.trans ⟨?_, ?_⟩
      · rintro ⟨earlier, u, later, rfl, hearlier, hu, rfl⟩
        refine ⟨t :: earlier, u, later, rfl, ?_, hu, by simp⟩
        exact List.forall_mem_cons.2 ⟨⟨o, hd⟩, hearlier⟩
      · rintro ⟨earlier, u, later, h, hearlier, hu, rfl⟩
        cases earlier with
        | nil =>
          obtain ⟨rfl, -⟩ := List.cons.inj h
          rw [hd] at hu
          cases hu
        | cons t' earlier =>
          obtain ⟨rfl, rfl⟩ := List.cons.inj h
          exact ⟨earlier, u, later, rfl, (List.forall_mem_cons.1 hearlier).2, hu, by simp⟩

/-! ### A configuration -/

/-- The warnings about tables that are not known, one for each. -/
def tableWarnings (config : Fields) : List Record :=
  (config.filter fun p => (Table.ofName? p.1).isNone).map fun p =>
    ⟨.warning, .configuration, s!"Ignoring unknown config section [{p.1}]"⟩

theorem reportUnknown_run (config : Fields) (log : List Record) :
    reportUnknown config log = (.ok (), log ++ tableWarnings config) := by
  induction config generalizing log with
  | nil => exact Prod.ext rfl (List.append_nil log).symm
  | cons p r ih =>
    obtain ⟨name, v⟩ := p
    rw [tableWarnings, List.filter_cons]
    by_cases hname : (Table.ofName? name).isNone = true
    · have hreport : (if (Table.ofName? name).isNone = true then
          Logged.report .warning .configuration s!"Ignoring unknown config section [{name}]"
        else pure () : Logged Failure Unit) log = (.ok (), log ++
          [⟨.warning, .configuration, s!"Ignoring unknown config section [{name}]"⟩]) := by
        rw [if_pos hname]
        rfl
      refine (bind_ok hreport).trans ((ih _).trans ?_)
      rw [if_pos hname, List.map_cons, List.append_assoc]
      rfl
    · have hsilent : (if (Table.ofName? name).isNone = true then
          Logged.report .warning .configuration s!"Ignoring unknown config section [{name}]"
        else pure () : Logged Failure Unit) log = (.ok (), log) := by
        rw [if_neg hname]
        rfl
      refine (bind_ok hsilent).trans ((ih _).trans ?_)
      rw [if_neg hname]
      rfl

theorem ofConfig_run (config : Fields) (overrides : Table → Fields) (log : List Record) :
    ofConfig config overrides log =
      gather config overrides Table.all {} (log ++ tableWarnings config) :=
  bind_ok (reportUnknown_run config log)

/-- **A configuration is taken if each of its tables is.** -/
theorem ofConfig_eq_ok_iff : ofConfig config overrides log = (.ok s, log') ↔
    (∀ t, decided config overrides t = .ok (optionsOf s t)) ∧
      log' = log ++ tableWarnings config ++ Table.all.flatMap (optionWarnings config) := by
  have hall : ∀ t : Table, t ∈ Table.all := by
    intro t
    cases t <;> decide
  rw [ofConfig_run, gather_eq_ok_iff (by decide)]
  constructor
  · rintro ⟨h, -, hlog⟩
    exact ⟨fun t => h t (hall t), hlog⟩
  · rintro ⟨h, hlog⟩
    exact ⟨fun t _ => h t, fun t ht => absurd (hall t) ht, hlog⟩

/-- **A configuration is refused with its first table that is.** -/
theorem ofConfig_eq_error_iff {f : Failure} :
    ofConfig config overrides log = (.error f, log') ↔
      ∃ earlier t later, Table.all = earlier ++ t :: later ∧
        (∀ u ∈ earlier, ∃ o, decided config overrides u = .ok o) ∧
        decided config overrides t = .error f ∧
        log' = log ++ tableWarnings config ++ (earlier ++ [t]).flatMap (optionWarnings config) := by
  rw [ofConfig_run, gather_eq_error_iff]

end Bulletin.Proofs.Settings.Tables
