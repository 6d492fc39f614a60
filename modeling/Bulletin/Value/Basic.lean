import Bulletin.Number.Binary64
import Bulletin.Text.Quoted

/-! # Data values

A value is what a JSON, TOML or YAML document holds. Documents are not trusted to give a field the
type that it should have, so values reach every place that uses them, and each such place asks for
what it needs: the truth of a value, its type's name, its text in a message, whether two are
equal. -/

namespace Bulletin

open Number (Binary64)

/-- A data value; an object keeps its fields in the order in which they came. -/
inductive Value where
  | null
  | bool (b : Bool)
  | int (n : Int)
  | float (x : Binary64)
  | str (s : String)
  | list (items : List Value)
  | dict (fields : List (String × Value))
  deriving Inhabited, Repr

/-- The fields of an object. -/
abbrev Fields := List (String × Value)

namespace Fields

/-- The value of a field. -/
def get? (fields : Fields) (key : String) : Option Value := List.lookup key fields

/-- The value of a field, null if it is missing. -/
def getD (fields : Fields) (key : String) : Value := (fields.get? key).getD .null

/-- Whether there is a field. -/
def has (fields : Fields) (key : String) : Bool := (fields.get? key).isSome

/-- The fields with one set: an old field keeps its place, a new one comes last. -/
def set : Fields → String → Value → Fields
  | [], key, v => [(key, v)]
  | (k, old) :: r, key, v => if k = key then (k, v) :: r else (k, old) :: set r key v

/-- The value of a field is smaller than the object that holds it. -/
theorem sizeOf_get?_lt {fields : Fields} {key : String} {v : Value}
    (h : fields.get? key = some v) : sizeOf v < sizeOf (Value.dict fields) := by
  obtain ⟨l₁, l₂, rfl, -⟩ := List.lookup_eq_some_iff.1 h
  have hm : (key, v) ∈ l₁ ++ (key, v) :: l₂ := by simp
  have := List.sizeOf_lt_of_mem hm
  simp at this ⊢
  omega

/-- The items of a list are smaller than the object that holds the list in a field. -/
theorem sizeOf_items_lt {fields : Fields} {key : String} {items : List Value}
    (h : fields.get? key = some (.list items)) : sizeOf items < sizeOf (Value.dict fields) := by
  have := sizeOf_get?_lt h
  simp only [Value.list.sizeOf_spec] at this
  omega

/-- No items are smaller than any object. -/
theorem sizeOf_nil_lt (fields : Fields) :
    sizeOf ([] : List Value) < sizeOf (Value.dict fields) := by
  cases fields <;>
    simp only [Value.dict.sizeOf_spec, List.nil.sizeOf_spec, List.cons.sizeOf_spec] <;> omega

/-- The fields of a list of settings, a later one of the same key overriding an earlier one. -/
def ofList (settings : Fields) : Fields := settings.foldl (fun fs p => fs.set p.1 p.2) []

end Fields

namespace Value

/-- The name of a value's type in messages. -/
def typeName : Value → String
  | null => "NoneType"
  | bool _ => "bool"
  | int _ => "int"
  | float _ => "float"
  | str _ => "str"
  | list _ => "list"
  | dict _ => "dict"

/-- Whether a value counts as given: null, false, zero and what is empty do not. -/
def truthy : Value → Bool
  | null => false
  | bool b => b
  | int n => n != 0
  | float x => !x.isZero
  | str s => !s.isEmpty
  | list items => !items.isEmpty
  | dict fields => !fields.isEmpty

/-- A value, or another where it does not count as given. -/
def orElse (v other : Value) : Value := if v.truthy then v else other

/-- The text of a value, if it is a text. -/
def text? : Value → Option String
  | str s => some s
  | _ => none

/-- The fields of a value, if it is an object. -/
def fields? : Value → Option Fields
  | dict fields => some fields
  | _ => none

/-! ### The text of a value in a message -/

/-- The text of a number in a message. -/
def floatText (x : Binary64) : String := x.toText "inf" "nan"

mutual

/-- The text of a value inside a list or an object, where texts are quoted. -/
def inner : Value → String
  | null => "None"
  | bool b => if b then "True" else "False"
  | int n => toString n
  | float x => floatText x
  | str s => Text.quoted s
  | list items => "[" ++ innerItems items ++ "]"
  | dict fields => "\x7b" ++ innerFields fields ++ "\x7d"

/-- The texts of the items of a list. -/
def innerItems : List Value → String
  | [] => ""
  | [v] => inner v
  | v :: w :: r => inner v ++ ", " ++ innerItems (w :: r)

/-- The texts of the fields of an object. -/
def innerFields : List (String × Value) → String
  | [] => ""
  | [(k, v)] => Text.quoted k ++ ": " ++ inner v
  | (k, v) :: w :: r => Text.quoted k ++ ": " ++ inner v ++ ", " ++ innerFields (w :: r)

end

/-- The text of a value in a message or on a page. -/
def display : Value → String
  | str s => s
  | v => v.inner

/-! ### Equality -/

/-- The whole number that a value stands for, if it does: true and false count as one and zero. -/
def whole? : Value → Option Int
  | bool b => some (if b then 1 else 0)
  | int n => some n
  | _ => none

/-- Equality of values that are no lists and no objects. -/
def equalsFlat : Value → Value → Bool
  | null, null => true
  | str s, str t => s == t
  | float x, float y => x.equals y
  | float x, v => (v.whole?.map x.equalsInt).getD false
  | v, float x => (v.whole?.map x.equalsInt).getD false
  | v, w =>
    match v.whole?, w.whole? with
    | some m, some n => m == n
    | _, _ => false

mutual

/-- Equality of values: numbers by their amount, objects whatever the order of their fields. -/
def equals : Value → Value → Bool
  | list xs, list ys => equalsItems xs ys
  | dict fs, dict gs => fs.length == gs.length && equalsFields fs gs
  | list _, _ => false
  | dict _, _ => false
  | _, list _ => false
  | _, dict _ => false
  | v, w => equalsFlat v w

/-- Equality of lists, item by item. -/
def equalsItems : List Value → List Value → Bool
  | [], [] => true
  | x :: xs, y :: ys => equals x y && equalsItems xs ys
  | _, _ => false

/-- Whether every field is equal to the field of the same key in another object. -/
def equalsFields : List (String × Value) → List (String × Value) → Bool
  | [], _ => true
  | (k, v) :: r, gs =>
    (match List.lookup k gs with
      | some w => equals v w
      | none => false) && equalsFields r gs

end

/-! ### Whole numbers and lists asked for -/

/-- The most digits that a whole number may have in a text. -/
def digitLimit : Nat := 4300

/-- The words for a whole number of more digits. -/
def excessMessage (digits : Nat) : String :=
  s!"Exceeds the limit ({digitLimit} digits) for integer string conversion: value has " ++
    s!"{digits} digits; use sys.set_int_max_str_digits() to increase the limit"

/-- Why a value is no whole number. -/
inductive NotWhole where
  | text (s : String)
  | excess (digits : Nat)
  | notANumber
  | infinite
  | otherType (typeName : String)
  deriving DecidableEq, Repr

/-- The items of a value that is asked for a list: a text gives its characters, an object its
keys. The name of the type is the error. -/
def items : Value → Except String (List Value)
  | list xs => .ok xs
  | str s => .ok (s.toList.map fun c => .str (String.singleton c))
  | dict fields => .ok (fields.map fun p => .str p.1)
  | v => .error v.typeName

end Value

end Bulletin
