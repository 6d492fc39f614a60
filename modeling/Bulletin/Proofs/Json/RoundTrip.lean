import Bulletin.Proofs.Json.Scalar
import Bulletin.Proofs.Runs
import Bulletin.Proofs.Value.Plain
import Mathlib.Data.List.TakeWhile

/-! # JSON texts are read as they are written

A plain value is what the reader makes of its own text, whatever the indentation (`read_write`).
The text of a value is read back in front of anything that can follow it, by induction on the value:
`ReadsBack` is what is known of a value inside a list or an object. Conversely no value that the
reader gives has a key twice or a whole number of too many digits (`readable_of_read`). -/

namespace Bulletin.Proofs.Json.RoundTrip

open Bulletin.Json Scalar
open Runs (except_map_eq_ok)

/-! ### Blanks -/

theorem skip_append {b : List Char} (hb : ∀ c ∈ b, isSpace c) (s : List Char) :
    skip (b ++ s) = skip s :=
  List.dropWhile_append_of_pos hb

theorem skip_cons {c : Char} (hc : isSpace c = false) (s : List Char) : skip (c :: s) = c :: s := by
  simp [skip, hc]

section Layout
variable (indent : Option Nat) (depth : Nat)

/-- The blanks of an indentation. -/
def margin (n : Nat) : List Char := '\n' :: List.replicate n ' '

theorem isSpace_of_mem_margin {n : Nat} : ∀ c ∈ margin n, isSpace c := by
  intro c hc
  rcases List.mem_cons.1 hc with rfl | hc
  · rfl
  · rw [List.eq_of_mem_replicate hc]; rfl

theorem toList_lineBreak : (lineBreak indent depth).toList =
    match indent with
    | none => []
    | some n => margin (n * depth) := by
  cases indent <;> simp [lineBreak, margin]

theorem toList_separator : (separator indent depth).toList = ',' ::
    match indent with
    | none => [' ']
    | some n => margin (n * depth) := by
  cases indent <;> simp [separator, margin]

theorem isSpace_of_mem_lineBreak : ∀ c ∈ (lineBreak indent depth).toList, isSpace c := by
  rw [toList_lineBreak]
  cases indent with
  | none => nofun
  | some n => exact isSpace_of_mem_margin

theorem toList_separator_eq_cons : ∃ b, (separator indent depth).toList = ',' :: b ∧
    ∀ c ∈ b, isSpace c := by
  rw [toList_separator]
  cases indent with
  | none => exact ⟨_, rfl, by simp [isSpace]⟩
  | some n => exact ⟨_, rfl, isSpace_of_mem_margin⟩

theorem follows_lineBreak {c : Char} (hc : c = ']' ∨ c = '}') (r : List Char) :
    Follows ((lineBreak indent depth).toList ++ c :: r) := by
  rw [toList_lineBreak]
  cases indent with
  | none => exact .inr (hc.imp_right .inl)
  | some n => exact .inr (.inr (.inr rfl))

end Layout

/-! ### The characters of a text -/

variable {indent : Option Nat} {depth : Nat}

theorem toList_writeString (s : String) :
    (writeString s).toList = '"' :: (s.toList.flatMap writeChar ++ ['"']) := by
  simp [writeString]

theorem toList_writeList (v : Value) (vs : List Value) :
    (writeAt indent depth (.list (v :: vs))).toList = '[' :: ((lineBreak indent (depth + 1)).toList ++
      ((writeItems indent (depth + 1) (v :: vs)).toList ++
        ((lineBreak indent depth).toList ++ [']']))) := by
  simp [writeAt]

theorem toList_writeDict (f : String × Value) (fields : Fields) :
    (writeAt indent depth (.dict (f :: fields))).toList =
      '{' :: ((lineBreak indent (depth + 1)).toList ++
        ((writeFields indent (depth + 1) (f :: fields)).toList ++
          ((lineBreak indent depth).toList ++ ['}']))) := by
  simp [writeAt]

theorem toList_writeItems (v w : Value) (vs : List Value) :
    (writeItems indent depth (v :: w :: vs)).toList = (writeAt indent depth v).toList ++
      ((separator indent depth).toList ++ (writeItems indent depth (w :: vs)).toList) := by
  simp [writeItems]

theorem toList_writeField (k : String) (v : Value) :
    (writeFields indent depth [(k, v)]).toList =
      (writeString k).toList ++ (':' :: ' ' :: (writeAt indent depth v).toList) := by
  simp [writeFields]

theorem toList_writeFields (k : String) (v : Value) (f : String × Value) (fields : Fields) :
    (writeFields indent depth ((k, v) :: f :: fields)).toList =
      (writeString k).toList ++ (':' :: ' ' :: ((writeAt indent depth v).toList ++
        ((separator indent depth).toList ++ (writeFields indent depth (f :: fields)).toList))) := by
  simp [writeFields]

/-- Whether a text begins with a character that is no blank, no closing bracket and no byte order
mark. -/
def Opens (s : List Char) : Prop :=
  ∃ c r, s = c :: r ∧ isSpace c = false ∧ c ≠ ']' ∧ c ≠ '}' ∧ c ≠ '\uFEFF'

theorem Opens.append {s : List Char} (h : Opens s) (k : List Char) : Opens (s ++ k) := by
  obtain ⟨c, r, rfl, hc⟩ := h
  exact ⟨c, r ++ k, rfl, hc⟩

theorem Opens.skip_eq {s : List Char} (h : Opens s) : skip s = s := by
  obtain ⟨c, r, rfl, hc, -⟩ := h
  exact skip_cons hc r

theorem opens_writeString (s : String) : Opens (writeString s).toList := by
  rw [toList_writeString]; exact ⟨_, _, rfl, rfl, by decide⟩

theorem opens_toString (n : Int) : Opens (toString n).toList := by
  obtain ⟨c, r, hc, hd | rfl⟩ := toString_eq_cons n
  · have : c ≠ ' ' ∧ c ≠ '\t' ∧ c ≠ '\n' ∧ c ≠ '\r' ∧ c ≠ ']' ∧ c ≠ '}' ∧ c ≠ '\uFEFF' := by
      refine ⟨?_, ?_, ?_, ?_, ?_, ?_, ?_⟩ <;> rintro rfl <;> cases hd
    rw [hc]
    exact ⟨c, r, rfl, by simp [isSpace, this], this.2.2.2.2⟩
  · rw [hc]; exact ⟨_, _, rfl, rfl, by decide⟩

theorem opens_writeAt {v : Value} (hv : v.Plain) : Opens (writeAt indent depth v).toList := by
  cases v with
  | null => simp [writeAt, Opens, isSpace]
  | bool b => cases b <;> simp [writeAt, Opens, isSpace]
  | int n => exact opens_toString n
  | float x => cases Value.not_plain_float x hv
  | str s => exact opens_writeString s
  | list vs =>
    cases vs with
    | nil => simp [writeAt, Opens, isSpace]
    | cons v vs => rw [toList_writeList]; exact ⟨_, _, rfl, rfl, by decide⟩
  | dict fields =>
    cases fields with
    | nil => simp [writeAt, Opens, isSpace]
    | cons f fields => rw [toList_writeDict]; exact ⟨_, _, rfl, rfl, by decide⟩

theorem opens_writeItems {v : Value} (hv : v.Plain) : ∀ vs : List Value,
    Opens (writeItems indent depth (v :: vs)).toList
  | [] => opens_writeAt hv
  | w :: vs => by
    rw [toList_writeItems]; exact (opens_writeAt hv).append _

theorem opens_writeFields (f : String × Value) : ∀ fields : Fields,
    Opens (writeFields indent depth (f :: fields)).toList
  | [] => by
    rw [toList_writeField]; exact (opens_writeString f.1).append _
  | g :: fields => by
    rw [toList_writeFields]; exact (opens_writeString f.1).append _

/-! ### Reading back -/

theorem readValue_scalar {c : Char} (r : List Char) (fuel : Nat) (h₁ : c ≠ '"') (h₂ : c ≠ '[')
    (h₃ : c ≠ '{') : readValue (fuel + 1) (c :: r) = readScalar (c :: r) := by
  simp [readValue, h₁, h₂, h₃]

theorem readValue_list {s : List Char} (fuel : Nat) (hs : Opens (skip s)) :
    readValue (fuel + 1) ('[' :: s) =
      (readItems fuel (skip s)).map fun (xs, r) => (.list xs, r) := by
  obtain ⟨c, r, hc, -, hne, -⟩ := hs
  rw [readValue, hc]
  simp [hne]

theorem readValue_dict {s : List Char} (fuel : Nat) (hs : Opens (skip s)) :
    readValue (fuel + 1) ('{' :: s) =
      (readFields fuel (skip s)).map fun (fs, r) => (.dict (Fields.ofList fs), r) := by
  obtain ⟨c, r, hc, -, -, hne, -⟩ := hs
  rw [readValue, hc]
  simp [hne]

theorem readItems_last {fuel : Nat} {s r k : List Char} {v : Value}
    (hv : readValue fuel s = .ok (v, r)) (hr : skip r = ']' :: k) :
    readItems (fuel + 1) s = .ok ([v], k) := by
  simp only [readItems, hv, hr]

theorem readItems_comma {fuel : Nat} {s r k : List Char} {v : Value}
    (hv : readValue fuel s = .ok (v, r)) (hr : skip r = ',' :: k) :
    readItems (fuel + 1) s = (readItems fuel (skip k)).map fun (vs, r) => (v :: vs, r) := by
  simp only [readItems, hv, hr]

theorem skip_space {s : List Char} (hs : Opens s) : skip (' ' :: s) = s := by
  have : skip (' ' :: s) = skip s := by simp [skip, isSpace]
  rw [this, hs.skip_eq]

theorem readFields_last {fuel : Nat} {s r k : List Char} (key : String) {v : Value} (hs : Opens s)
    (hv : readValue fuel s = .ok (v, r)) (hr : skip r = '}' :: k) :
    readFields (fuel + 1) ((writeString key).toList ++ ':' :: ' ' :: s) = .ok ([(key, v)], k) := by
  have hq : skip (':' :: ' ' :: s) = ':' :: ' ' :: s := skip_cons rfl _
  simp only [readFields, readString_writeString, hq, skip_space hs, hv, hr]

theorem readFields_comma {fuel : Nat} {s r k : List Char} (key : String) {v : Value} (hs : Opens s)
    (hv : readValue fuel s = .ok (v, r)) (hr : skip r = ',' :: k) :
    readFields (fuel + 1) ((writeString key).toList ++ ':' :: ' ' :: s) =
      (readFields fuel (skip k)).map fun (fs, r) => ((key, v) :: fs, r) := by
  have hq : skip (':' :: ' ' :: s) = ':' :: ' ' :: s := skip_cons rfl _
  simp only [readFields, readString_writeString, hq, skip_space hs, hv, hr]

/-- **A value that is read back from its text**, with fuel for each character and in front of
anything that can follow a value. -/
def ReadsBack (indent : Option Nat) (v : Value) : Prop := ∀ (depth fuel : Nat) (r : List Char),
  Follows r → 2 * (writeAt indent depth v).toList.length ≤ fuel →
    readValue fuel ((writeAt indent depth v).toList ++ r) = .ok (v, r)

/-- **Items that are each read back are read back as a list.** -/
theorem readItems_writeItems {b : List Char} (hb : ∀ c ∈ b, isSpace c) (r : List Char)
    (hf : Follows (b ++ ']' :: r)) : ∀ (v : Value) (vs : List Value) (fuel : Nat),
    (∀ w ∈ v :: vs, w.Plain ∧ ReadsBack indent w) →
      2 * (writeItems indent depth (v :: vs)).toList.length ≤ fuel →
        readItems (fuel + 1) ((writeItems indent depth (v :: vs)).toList ++ (b ++ ']' :: r)) =
          .ok (v :: vs, r)
  | v, [], fuel, h, hfuel => by
    have hv := (h v List.mem_cons_self).2 depth fuel _ hf hfuel
    have hr : skip (b ++ ']' :: r) = ']' :: r := by rw [skip_append hb]; rfl
    exact readItems_last hv hr
  | v, w :: vs, fuel, h, hfuel => by
    have hw := fun u hu => h u (List.mem_cons_of_mem v hu)
    obtain ⟨d, hd, hs⟩ := toList_separator_eq_cons indent depth
    rw [toList_writeItems, hd, List.length_append, List.length_append, List.length_cons] at hfuel
    obtain ⟨fuel, rfl⟩ : ∃ n, fuel = n + 1 := ⟨fuel - 1, by omega⟩
    have hv := (h v List.mem_cons_self).2 depth (fuel + 1)
      (',' :: (d ++ ((writeItems indent depth (w :: vs)).toList ++ (b ++ ']' :: r)))) (.inl rfl)
      (by omega)
    have ho : Opens ((writeItems indent depth (w :: vs)).toList ++ (b ++ ']' :: r)) :=
      (opens_writeItems (hw w List.mem_cons_self).1 vs).append _
    have ih := readItems_writeItems hb r hf w vs fuel hw (by omega)
    rw [toList_writeItems, hd, List.append_assoc, List.append_assoc, List.cons_append,
      readItems_comma hv (skip_cons rfl _), skip_append hs, ho.skip_eq, ih]
    rfl

/-- **Fields whose values are each read back are read back as an object.** -/
theorem readFields_writeFields {b : List Char} (hb : ∀ c ∈ b, isSpace c) (r : List Char)
    (hf : Follows (b ++ '}' :: r)) (fields : Fields) : ∀ (f : String × Value) (fuel : Nat),
    (∀ p ∈ f :: fields, p.2.Plain ∧ ReadsBack indent p.2) →
      2 * (writeFields indent depth (f :: fields)).toList.length ≤ fuel →
        readFields (fuel + 1) ((writeFields indent depth (f :: fields)).toList ++
          (b ++ '}' :: r)) = .ok (f :: fields, r) := by
  induction fields with
  | nil =>
    rintro ⟨key, v⟩ fuel h hfuel
    have hp : v.Plain := (h _ List.mem_cons_self).1
    have hv : ReadsBack indent v := (h _ List.mem_cons_self).2
    rw [toList_writeField, List.length_append, List.length_cons, List.length_cons] at hfuel
    have hv := hv depth fuel _ hf (by omega)
    have hr : skip (b ++ '}' :: r) = '}' :: r := by rw [skip_append hb]; rfl
    rw [toList_writeField, List.append_assoc, List.cons_append, List.cons_append]
    exact readFields_last key ((opens_writeAt hp).append _) hv hr
  | cons f fields ih =>
    rintro ⟨key, v⟩ fuel h hfuel
    have hp : v.Plain := (h _ List.mem_cons_self).1
    have hv : ReadsBack indent v := (h _ List.mem_cons_self).2
    have hw := fun p hp => h p (List.mem_cons_of_mem (key, v) hp)
    obtain ⟨d, hd, hs⟩ := toList_separator_eq_cons indent depth
    rw [toList_writeFields, hd, List.length_append, List.length_cons, List.length_cons,
      List.length_append, List.length_append, List.length_cons] at hfuel
    obtain ⟨fuel, rfl⟩ : ∃ n, fuel = n + 1 := ⟨fuel - 1, by omega⟩
    have hv := hv depth (fuel + 1)
      (',' :: (d ++ ((writeFields indent depth (f :: fields)).toList ++ (b ++ '}' :: r)))) (.inl rfl)
      (by omega)
    have ho : Opens ((writeFields indent depth (f :: fields)).toList ++ (b ++ '}' :: r)) :=
      (opens_writeFields f fields).append _
    have ih := ih f fuel hw (by omega)
    rw [toList_writeFields, hd, List.append_assoc, List.cons_append, List.cons_append,
      List.append_assoc, List.append_assoc, List.cons_append,
      readFields_comma key ((opens_writeAt hp).append _) hv (skip_cons rfl _), skip_append hs,
      ho.skip_eq, ih]
    rfl

theorem readsBack_list {vs : List Value} (h : ∀ w ∈ vs, w.Plain ∧ ReadsBack indent w) :
    ReadsBack indent (.list vs) := by
  intro depth fuel r hr hfuel
  cases vs with
  | nil =>
    obtain ⟨fuel, rfl⟩ : ∃ n, fuel = n + 1 := ⟨fuel - 1, by simp [writeAt] at hfuel; omega⟩
    simp [writeAt, readValue, skip, isSpace]
  | cons v vs =>
    rw [toList_writeList, List.length_cons, List.length_append, List.length_append] at hfuel
    obtain ⟨fuel, rfl⟩ : ∃ n, fuel = n + 1 + 1 := ⟨fuel - 2, by omega⟩
    have hi : readItems (fuel + 1) ((writeItems indent (depth + 1) (v :: vs)).toList ++
        ((lineBreak indent depth).toList ++ ']' :: r)) = .ok (v :: vs, r) :=
      readItems_writeItems (isSpace_of_mem_lineBreak indent depth) r
        (follows_lineBreak indent depth (.inl rfl) r) v vs fuel h (by omega)
    have ho : Opens ((writeItems indent (depth + 1) (v :: vs)).toList ++
        ((lineBreak indent depth).toList ++ ']' :: r)) :=
      (opens_writeItems (h v List.mem_cons_self).1 vs).append _
    have hs := (skip_append (isSpace_of_mem_lineBreak indent (depth + 1)) _).trans ho.skip_eq
    rw [toList_writeList, List.cons_append, List.append_assoc, List.append_assoc,
      List.append_assoc, List.singleton_append, readValue_list (fuel + 1) (hs.symm ▸ ho), hs, hi]
    rfl

theorem readsBack_dict {fields : Fields} (hn : (fields.map Prod.fst).Nodup)
    (h : ∀ p ∈ fields, p.2.Plain ∧ ReadsBack indent p.2) : ReadsBack indent (.dict fields) := by
  intro depth fuel r hr hfuel
  cases fields with
  | nil =>
    obtain ⟨fuel, rfl⟩ : ∃ n, fuel = n + 1 := ⟨fuel - 1, by simp [writeAt] at hfuel; omega⟩
    simp [writeAt, readValue, skip, isSpace]
  | cons f fields =>
    rw [toList_writeDict, List.length_cons, List.length_append, List.length_append] at hfuel
    obtain ⟨fuel, rfl⟩ : ∃ n, fuel = n + 1 + 1 := ⟨fuel - 2, by omega⟩
    have hi : readFields (fuel + 1) ((writeFields indent (depth + 1) (f :: fields)).toList ++
        ((lineBreak indent depth).toList ++ '}' :: r)) = .ok (f :: fields, r) :=
      readFields_writeFields (isSpace_of_mem_lineBreak indent depth) r
        (follows_lineBreak indent depth (.inr rfl) r) fields f fuel h (by omega)
    have ho : Opens ((writeFields indent (depth + 1) (f :: fields)).toList ++
        ((lineBreak indent depth).toList ++ '}' :: r)) := (opens_writeFields f fields).append _
    have hs := (skip_append (isSpace_of_mem_lineBreak indent (depth + 1)) _).trans ho.skip_eq
    rw [toList_writeDict, List.cons_append, List.append_assoc, List.append_assoc,
      List.append_assoc, List.singleton_append, readValue_dict (fuel + 1) (hs.symm ▸ ho), hs, hi]
    simp only [Except.map, Fields.ofList_eq_self hn]

theorem readsBack_str (s : String) : ReadsBack indent (.str s) := by
  intro depth fuel r _ hfuel
  rw [writeAt, toList_writeString, List.length_cons] at hfuel
  obtain ⟨fuel, rfl⟩ : ∃ n, fuel = n + 1 := ⟨fuel - 1, by omega⟩
  have hs := readString_writeString s r
  rw [toList_writeString, List.cons_append] at hs
  rw [writeAt, toList_writeString, List.cons_append, readValue, hs]
  rfl

theorem readsBack_int {n : Int} (hn : Value.digitCount n ≤ Value.digitLimit) :
    ReadsBack indent (.int n) := by
  intro depth fuel r hr hfuel
  obtain ⟨c, k, hc, hd⟩ := toString_eq_cons n
  have hne : c ≠ '"' ∧ c ≠ '[' ∧ c ≠ '{' := by
    refine ⟨?_, ?_, ?_⟩ <;> rintro rfl <;> revert hd <;> decide
  have hs := readScalar_toString hn hr
  rw [writeAt, hc, List.length_cons] at hfuel
  obtain ⟨fuel, rfl⟩ : ∃ n, fuel = n + 1 := ⟨fuel - 1, by omega⟩
  rw [hc, List.cons_append] at hs
  rw [writeAt, hc, List.cons_append, readValue_scalar _ fuel hne.1 hne.2.1 hne.2.2, hs]

/-- **A plain value is read back from its text.** -/
theorem readsBack (v : Value) (hv : v.Plain) : ReadsBack indent v := by
  induction v using Value.induct with
  | null =>
    intro depth fuel r _ hfuel
    obtain ⟨fuel, rfl⟩ : ∃ n, fuel = n + 1 := ⟨fuel - 1, by simp [writeAt] at hfuel; omega⟩
    simp [writeAt, readValue, readScalar, literals, Text.after?]
  | bool b =>
    intro depth fuel r _ hfuel
    obtain ⟨fuel, rfl⟩ : ∃ n, fuel = n + 1 :=
      ⟨fuel - 1, by cases b <;> simp [writeAt] at hfuel <;> omega⟩
    cases b <;> simp [writeAt, readValue, readScalar, literals, Text.after?]
  | int n => exact readsBack_int (Value.plain_int n |>.1 hv)
  | float x => cases Value.not_plain_float x hv
  | str s => exact readsBack_str s
  | list vs ih =>
    have hp := Value.plain_list.1 hv
    exact readsBack_list fun w hw => ⟨hp w hw, ih w hw (hp w hw)⟩
  | dict fields ih =>
    obtain ⟨hn, hp⟩ := Value.plain_dict.1 hv
    exact readsBack_dict hn fun p h => ⟨hp p h, ih p h (hp p h)⟩

/-! ### Documents -/

theorem readDocument_of_opens {s : List Char} (hs : Opens s) {v : Value}
    (hv : readValue (2 * s.length + 2) s = .ok (v, [])) : readDocument s = .ok v := by
  have hk := hs.skip_eq
  obtain ⟨c, r, rfl, -, -, -, hne⟩ := hs
  rw [List.length_cons] at hv
  have he : skip [] = [] := rfl
  simp [readDocument, hne, hk, hv, he]

/-- **A plain value is what the reader makes of its text.** -/
theorem read_write {v : Value} (hv : v.Plain) (indent : Option Nat) :
    Json.read (write v indent) = .ok v := by
  have hb : ReadsBack indent v := readsBack v hv
  have hr := hb 0 (2 * (write v indent).toList.length + 2) [] trivial (by rw [write]; omega)
  rw [List.append_nil] at hr
  have hd : readDocument (write v indent).toList = .ok v :=
    readDocument_of_opens (opens_writeAt hv) hr
  rw [Json.read, hd]
  rfl

/-- **A whole number of too many digits ends the reading** of a list, whether or not the list is ever
closed. -/
theorem read_of_excess {n : Int} (hn : Value.digitLimit < Value.digitCount n) {r : List Char}
    (hr : Follows r) : ∃ e, Json.read (.ofList ('[' :: (toString n).toList ++ r)) = .error e ∧
      e.fault = .excess (Value.digitCount n) := by
  have ho : Opens ((toString n).toList ++ r) := (opens_toString n).append r
  obtain ⟨c, k, hc, hd⟩ := toString_eq_cons n
  have hne : c ≠ '"' ∧ c ≠ '[' ∧ c ≠ '{' := by
    refine ⟨?_, ?_, ?_⟩ <;> rintro rfl <;> revert hd <;> decide
  have hs := readScalar_of_excess hn hr
  have hlist : ∀ fuel, readValue (fuel + 1 + 1 + 1) ('[' :: ((toString n).toList ++ r)) =
      .error ⟨.excess (Value.digitCount n), Nat.toDigits 10 n.natAbs ++ r⟩ := by
    intro fuel
    rw [readValue_list (fuel + 1 + 1) (ho.skip_eq.symm ▸ ho), ho.skip_eq]
    rw [hc, List.cons_append] at hs ⊢
    rw [readItems, readValue_scalar _ fuel hne.1 hne.2.1 hne.2.2, hs]
    rfl
  have hdocument : readDocument ('[' :: ((toString n).toList ++ r)) =
      .error ⟨.excess (Value.digitCount n), Nat.toDigits 10 n.natAbs ++ r⟩ := by
    have hfuel : 2 * ('[' :: ((toString n).toList ++ r)).length + 2 =
        2 * ((toString n).toList ++ r).length + 1 + 1 + 1 + 1 := by
      rw [List.length_cons]
      omega
    unfold readDocument
    rw [hfuel]
    split
    · next h => cases h
    · rw [skip_cons rfl, hlist]
  rw [Json.read, String.toList_ofList, List.cons_append, hdocument]
  exact ⟨_, rfl, rfl⟩

/-! ### What the reader gives -/

theorem foldl_digits_lt : ∀ (ds : List Char) (n : Nat), (∀ c ∈ ds, c.isDigit) →
    ds.foldl (fun n c => 10 * n + (Text.hexValue? c).getD 0) n < (n + 1) * 10 ^ ds.length
  | [], n, _ => by simp
  | c :: ds, n, h => by
    have hc : (Text.hexValue? c).getD 0 < 10 := by
      have hd : '0' ≤ c ∧ c ≤ '9' := by
        simpa [Char.isDigit, Char.le_def] using h c List.mem_cons_self
      have hn : c.toNat ≤ 57 := hd.2
      have hv : Text.hexValue? c = some (c.toNat - 48) := by simp [Text.hexValue?, hd]
      rw [hv, Option.getD_some]
      omega
    have ih := foldl_digits_lt ds (10 * n + (Text.hexValue? c).getD 0)
      fun d hd => h d (List.mem_cons_of_mem c hd)
    have hstep : 10 * n + (Text.hexValue? c).getD 0 + 1 ≤ (n + 1) * 10 := by omega
    calc _ < (10 * n + (Text.hexValue? c).getD 0 + 1) * 10 ^ ds.length := ih
      _ ≤ (n + 1) * 10 * 10 ^ ds.length := Nat.mul_le_mul_right _ hstep
      _ = (n + 1) * 10 ^ (c :: ds).length := by
        rw [List.length_cons, Nat.pow_succ, Nat.mul_assoc, Nat.mul_comm 10]

theorem isDigit_of_wholeDigits? {s ds r : List Char} (h : wholeDigits? s = some (ds, r)) :
    ∀ c ∈ ds, c.isDigit := by
  unfold wholeDigits? at h
  split at h
  · cases h
    simp only [List.mem_singleton, forall_eq]
    rfl
  · split_ifs at h
    rw [digits, List.span_eq_takeWhile_dropWhile] at h
    cases h
    exact fun c hc => List.mem_takeWhile_imp hc

/-- **A whole number that is read has not too many digits.** -/
theorem readable_number? {negative : Bool} {s r : List Char} {v : Value}
    (h : number? negative s = some (.ok (v, r))) : v.Readable := by
  unfold number? at h
  obtain ⟨⟨ds, k⟩, hds, h⟩ := Option.map_eq_some_iff.1 h
  dsimp only at h
  split at h
  · by_cases hl : Value.digitLimit < ds.length
    · rw [if_pos hl] at h
      cases h
    · rw [if_neg hl] at h
      cases h
      have hlt := foldl_digits_lt ds 0 (isDigit_of_wholeDigits? hds)
      rw [Nat.zero_add, Nat.one_mul] at hlt
      have hlimit : Text.ofDigits 10 ds < 10 ^ Value.digitLimit :=
        Nat.lt_of_lt_of_le hlt (Nat.pow_le_pow_right (by decide) (Nat.not_lt.1 hl))
      refine (Value.readable_int _).2 (Value.digitCount_le (by decide) ?_)
      cases negative with
      | true => rwa [if_pos rfl, Int.natAbs_neg, Int.natAbs_natCast]
      | false => rwa [if_neg Bool.false_ne_true, Int.natAbs_natCast]
  · cases h
    exact Value.readable_float _

theorem readable_getD_number? {negative : Bool} {s r : List Char} {v : Value} {stop : Stop}
    (h : (number? negative s).getD (.error stop) = .ok (v, r)) : v.Readable := by
  cases hn : number? negative s with
  | none => rw [hn] at h; cases h
  | some p =>
    rw [hn] at h
    obtain rfl : p = .ok (v, r) := h
    exact readable_number? hn

theorem readable_readScalar {s r : List Char} {v : Value} (h : readScalar s = .ok (v, r)) :
    v.Readable := by
  unfold readScalar at h
  split at h
  · next p hp =>
    obtain ⟨q, hq, hm⟩ := List.exists_of_findSome?_eq_some hp
    obtain ⟨k, -, hk⟩ := Option.map_eq_some_iff.1 hm
    cases h
    obtain ⟨rfl, -⟩ := Prod.mk.inj hk
    revert q
    simp [literals]
  · split at h
    · exact readable_getD_number? h
    · exact readable_getD_number? h

/-- **What the reader gives can be read**, for each of its three functions. -/
theorem readable_of_readValue (fuel : Nat) :
    (∀ s v r, readValue fuel s = .ok (v, r) → v.Readable) ∧
      (∀ s vs r, readItems fuel s = .ok (vs, r) → ∀ v ∈ vs, v.Readable) ∧
        ∀ s fields r, readFields fuel s = .ok (fields, r) → ∀ p ∈ fields, p.2.Readable := by
  induction fuel with
  | zero => exact ⟨nofun, nofun, nofun⟩
  | succ fuel ih =>
    obtain ⟨ihv, ihi, ihf⟩ := ih
    refine ⟨fun s v r h => ?_, fun s vs r h => ?_, fun s fields r h => ?_⟩
    · unfold readValue at h
      split at h
      · obtain ⟨⟨t, k⟩, -, h⟩ := except_map_eq_ok.1 h
        cases h
        simp
      · split at h
        · cases h
          simp [Value.readable_list]
        · obtain ⟨⟨vs, k⟩, hi, h⟩ := except_map_eq_ok.1 h
          cases h
          exact Value.readable_list.2 (ihi _ _ _ hi)
      · split at h
        · cases h
          simp [Value.readable_dict]
        · obtain ⟨⟨fields, k⟩, hf, h⟩ := except_map_eq_ok.1 h
          cases h
          exact Value.readable_dict.2 ⟨Fields.nodup_ofList fields, fun p hp =>
            ihf _ _ _ hf p (Fields.mem_of_mem_ofList hp)⟩
      · exact readable_readScalar h
    · unfold readItems at h
      split at h
      · cases h
      · next v k hv =>
        split at h
        · cases h
          simpa using ihv _ _ _ hv
        · obtain ⟨⟨vs, k⟩, hi, h⟩ := except_map_eq_ok.1 h
          cases h
          exact List.forall_mem_cons.2 ⟨ihv _ _ _ hv, ihi _ _ _ hi⟩
        · cases h
    · unfold readFields at h
      split at h
      · cases h
      · split at h
        · split at h
          · cases h
          · next v k hv =>
            split at h
            · cases h
              simpa using ihv _ _ _ hv
            · obtain ⟨⟨fields, k⟩, hf, h⟩ := except_map_eq_ok.1 h
              cases h
              exact List.forall_mem_cons.2 ⟨ihv _ _ _ hv, ihf _ _ _ hf⟩
            · cases h
        · cases h

/-- **No value that is read from a text has a key twice** or a whole number of too many digits. -/
theorem readable_of_read {text : String} {v : Value} (h : Json.read text = .ok v) : v.Readable := by
  unfold Json.read readDocument at h
  split at h
  · cases h
  · split at h
    · cases h
    · next hv =>
      split at h
      · cases h
        exact (readable_of_readValue _).1 _ _ _ hv
      · cases h

end Bulletin.Proofs.Json.RoundTrip
