import ShadeTree.Lib.Decimal

/-!
# JSON values as JavaScript sees them

`JSON.parse` reads a number as a double, which is kept here as its shortest decimal, or as infinite when the
literal is too large; -0 is 0.  Strings are sequences of characters: lone surrogates are left out.
-/

namespace ShadeTree.Lib

inductive Number where
  | fin (d : Decimal)
  | inf (neg : Bool)
  deriving DecidableEq

/-- A value that `JSON.parse` returns. -/
abbrev Value := Json Number

namespace Value

/-- The integer that a value is, if `Number.isInteger` says so. -/
def asInteger : Value → Option ℤ
  | .num (.fin d) => d.toInt?
  | _ => none

def asString : Value → Option String
  | .str s => some s
  | _ => none

def asArray : Value → Option (List Value)
  | .arr items => some items
  | _ => none

def truthy : Value → Bool
  | .null => false
  | .bool b => b
  | .num (.fin d) => d.digits ≠ 0
  | .num (.inf _) => true
  | .str s => s ≠ ""
  | .arr _ | .obj _ => true

/-- A number as `JSON.stringify` writes it. -/
def clean : Number → Json Decimal
  | .fin d => .num d
  | .inf _ => .null

/-- `JSON.stringify(v)`. -/
def stringify (v : Value) : List Char := (v.bind clean).write Decimal.text

/-- What `JSON.parse` makes of the text that `JSON.stringify` writes. -/
def wire (v : Value) : Value := (v.bind clean).bind fun d => .num (.fin d)

lemma get_wire (key : String) (v : Value) : v.wire.get key = (v.get key).map wire := by
  have hclean : ∀ n key, (clean n).get key = none := by
    intro n key
    cases n <;> rfl
  unfold wire
  rw [Json.get_bind _ (fun _ _ => rfl), Json.get_bind _ hclean, Option.map_map]
  rfl

lemma wire_obj (fields : List (String × Value)) :
    wire (.obj fields) = .obj (fields.map fun field => (field.1, field.2.wire)) := by
  simp only [wire, Json.bind, Json.bindFields_eq_map, List.map_map]
  rfl

lemma wire_arr (items : List Value) : wire (.arr items) = .arr (items.map wire) := by
  simp only [wire, Json.bind, Json.bindItems_eq_map, List.map_map]
  rfl

@[simp] lemma wire_str (s : String) : wire (.str s) = .str s := rfl

@[simp] lemma asInteger_wire (v : Value) : v.wire.asInteger = v.asInteger := by
  rcases v with _ | _ | n | _ | _ | _ <;> try rfl
  cases n <;> rfl

@[simp] lemma asString_wire (v : Value) : v.wire.asString = v.asString := by
  rcases v with _ | _ | n | _ | _ | _ <;> try rfl
  cases n <;> rfl

@[simp] lemma asArray_wire (v : Value) : v.wire.asArray = v.asArray.map (List.map wire) := by
  cases v with
  | num n => cases n <;> rfl
  | arr items => rw [wire_arr]; rfl
  | _ => rfl

/-- Values with one text are one value once they are read. -/
lemma wire_eq_of_stringify {v v' : Value} (h : v.stringify = v'.stringify) : v.wire = v'.wire :=
  congrArg (Json.bind fun d : Decimal => Json.num (Number.fin d)) (Json.write_inj Decimal.numberText h)

lemma bind_clean_wire (v : Value) : v.wire.bind clean = v.bind clean := by
  have hnum : (fun d : Decimal => (Json.num (Number.fin d)).bind clean) = .num := rfl
  unfold wire
  rw [Json.bind_bind, hnum, Json.bind_num]

lemma stringify_wire (v : Value) : v.wire.stringify = v.stringify :=
  congrArg (Json.write Decimal.text) v.bind_clean_wire

mutual

/-- `String(v)`; `none` when it throws. -/
def toText : Value → Option (List Char)
  | .null => some "null".toList
  | .bool true => some "true".toList
  | .bool false => some "false".toList
  | .num (.fin d) => some d.text
  | .num (.inf neg) => some (if neg then "-Infinity".toList else "Infinity".toList)
  | .str s => some s.toList
  | .arr items => (joinItems items).map (List.drop 1)
  -- an own `toString` is no function, and then `valueOf` gives no primitive
  | .obj fields => if fields.any fun field => field.1 = "toString" then none else some "[object Object]".toList

/-- The items of an array as `join` writes them, each after a comma. -/
def joinItems : List Value → Option (List Char)
  | [] => some []
  | .null :: items => (joinItems items).map (',' :: ·)
  | item :: items => do
    let text ← toText item
    let texts ← joinItems items
    return ',' :: (text ++ texts)

end

end Value

/-- A reader of JSON that reads back what `JSON.stringify` writes. -/
structure JsonReader where
  parse : String → Option Value
  parse_stringify : ∀ v : Value, parse (String.ofList v.stringify) = some v.wire

open Classical in
/-- The reader of the texts that are written, and of no others. -/
noncomputable def JsonReader.written : JsonReader where
  parse text := if h : ∃ v : Value, String.ofList v.stringify = text then some h.choose.wire else none
  parse_stringify v := by
    have h : ∃ v' : Value, String.ofList v'.stringify = String.ofList v.stringify := ⟨v, rfl⟩
    rw [dif_pos h, Value.wire_eq_of_stringify (String.ofList_injective h.choose_spec)]

end ShadeTree.Lib
