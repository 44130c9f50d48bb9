import LocalGrid.Decimal.Layout
import LocalGrid.Decimal.Reading
import LocalGrid.Text.Quoted
import LocalGrid.Toml.Value

/-!
# Decoding

From values to settings. A record is decoded from a table by the names of its fields or from an
array by their order; what is absent keeps the value that it had before, unless the field has to be
present. Entries are decoded in the order in which they were written, and the first one that does
not fit is reported.
-/

namespace LocalGrid.Toml

inductive Form where
  | index
  | seed
  | word
  | quantity
  | boolean
  | text
  | sequence
  | record (name : String)
  deriving DecidableEq, Repr

def Form.name : Form → String
  | .index => "usize"
  | .seed => "u64"
  | .word => "u32"
  | .quantity => "f32"
  | .boolean => "a boolean"
  | .text => "a string"
  | .sequence => "a sequence"
  | .record name => "struct " ++ name

inductive DecodeError where
  /-- A value of another type, described. -/
  | type (found : String) (expected : Form)
  /-- An integer outside its range. -/
  | range (found : Int) (expected : Form)
  | unknownField (name : String) (known : List String)
  | missingField (name : String)
  /-- An array that ends before a field that has to be present. -/
  | tooShort (length : Nat) (expected : Form) (fields : Nat)
  deriving DecidableEq, Repr

def ticked (name : String) : String := "\x60" ++ name ++ "\x60"

def choiceText : List String → String
  | [] => ""
  | [a] => ticked a
  | [a, b] => ticked a ++ " or " ++ ticked b
  | names => "one of " ++ ", ".intercalate (names.map ticked)

def DecodeError.message : DecodeError → String
  | .type found expected => "invalid type: " ++ found ++ ", expected " ++ expected.name
  | .range found expected =>
    "invalid value: integer " ++ ticked (toString found) ++ ", expected " ++ expected.name
  | .unknownField name known =>
    "unknown field " ++ ticked name ++ ", expected " ++ choiceText known
  | .missingField name => "missing field " ++ ticked name
  | .tooShort length expected fields =>
    "invalid length " ++ Nat.repr length ++ ", expected " ++ expected.name ++ " with "
      ++ Nat.repr fields ++ " elements"

def Value.description : Value → String
  | .text s => "string " ++ Text.quoted s
  | .integer n => "integer " ++ ticked (toString n)
  | .number x => "floating point " ++ ticked (Decimal.Layout.diagnostic.double x)
  | .boolean b => "boolean " ++ ticked (if b then "true" else "false")
  | .moment => "map"
  | .array _ => "sequence"
  | .table _ _ => "map"
  | .tables _ => "sequence"

def Value.mistyped {β : Type} (v : Value) (expected : Form) : Except DecodeError β :=
  .error (.type v.description expected)

def Value.toNatural (limit : Nat) (form : Form) : Value → Except DecodeError Nat
  | .integer n => if 0 ≤ n ∧ n < limit then .ok n.toNat else .error (.range n form)
  | v => v.mistyped form

def Value.toIndex (v : Value) : Except DecodeError Nat := v.toNatural UInt64.size .index

def Value.toSeed (v : Value) : Except DecodeError UInt64 :=
  (v.toNatural UInt64.size .seed).map UInt64.ofNat

def Value.toWord (v : Value) : Except DecodeError UInt32 :=
  (v.toNatural UInt32.size .word).map UInt32.ofNat

/-- A quantity, the nearest one in single precision; integers are quantities too. -/
def Value.toQuantity : Value → Except DecodeError Float32
  | .number x => .ok (Binary.narrow x)
  | .integer n => .ok (Decimal.Reading.number ⟨n < 0, n.natAbs, 0⟩).toSingle
  | v => v.mistyped .quantity

def Value.toBoolean : Value → Except DecodeError Bool
  | .boolean b => .ok b
  | v => v.mistyped .boolean

def Value.toText : Value → Except DecodeError String
  | .text s => .ok s
  | v => v.mistyped .text

def Value.toItems : Value → Except DecodeError (List Value)
  | .array items => .ok items
  | .tables items => .ok (items.map (.table .header))
  | v => v.mistyped .sequence

def Value.toQuantities (v : Value) : Except DecodeError (List Float32) := do
  (← v.toItems).mapM Value.toQuantity

inductive Presence where
  | never
  /-- In an array that reaches so far or ends before it. -/
  | inArrays
  | always
  deriving DecidableEq, Repr

/-- A field of a record of type `S`. -/
structure Schema.Field (S : Type) where
  name : String
  /-- Sets the field to a value. -/
  set : Value → S → Except DecodeError S
  presence : Presence := .never

def Schema.Field.of {S β : Type} (name : String) (decode : Value → Except DecodeError β)
    (put : S → β → S) : Schema.Field S :=
  ⟨name, fun v s => (decode v).map (put s), .never⟩

/-- A record: its name in reports and its fields in order. -/
structure Schema (S : Type) where
  name : String
  fields : List (Schema.Field S)

namespace Schema

variable {S : Type}

def form (r : Schema S) : Form := .record r.name

def names (r : Schema S) : List String := r.fields.map (·.name)

def setEntries (r : Schema S) : Entries → S → Except DecodeError S
  | [], s => .ok s
  | (key, v) :: rest, s =>
    match r.fields.find? fun f => f.name = key with
    | none => .error (.unknownField key r.names)
    | some f => do r.setEntries rest (← f.set v s)

/-- Sets fields to items in order; items beyond the last field have no meaning. -/
def setItems (r : Schema S) : Nat → List (Field S) → List Value → S → Except DecodeError S
  | _, [], _, s => .ok s
  | index, f :: fields, v :: items, s => do r.setItems (index + 1) fields items (← f.set v s)
  | index, f :: fields, [], s =>
    if f.presence = .never then r.setItems (index + 1) fields [] s
    else .error (.tooShort index r.form r.fields.length)

/-- The first field that entries lack although it has to be present. -/
def missing? (r : Schema S) (entries : Entries) : Option (Field S) :=
  r.fields.find? fun f => f.presence = .always && !entries.any fun (key, _) => key = f.name

/-- The name under which a moment presents itself where a record is expected. -/
def momentField : String := "$__toml_private_datetime"

def decode (r : Schema S) (v : Value) (s : S) : Except DecodeError S :=
  match v with
  | .table _ entries => do
    let s ← r.setEntries entries s
    match r.missing? entries with
    | some f => .error (.missingField f.name)
    | none => pure s
  | .array items => r.setItems 0 r.fields items s
  | .tables items => r.setItems 0 r.fields (items.map (.table .header)) s
  | .moment => .error (.unknownField momentField r.names)
  | v => v.mistyped r.form

def asField {T : Type} (r : Schema S) (name : String) (get : T → S) (put : T → S → T) : Field T :=
  ⟨name, fun v t => (r.decode v (get t)).map (put t), .never⟩

end Schema

end LocalGrid.Toml
