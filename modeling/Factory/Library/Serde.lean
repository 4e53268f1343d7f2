import Factory.Library.Json
import Factory.Library.Result
import Factory.Library.Text

namespace Serde

open Json Result

variable {α : Type}

abbrev Decoder (α : Type) := Value → Except String α

def unsigned (n : Nat) : Value := .number (.int n)

def optionalValue (encode : α → Value) (value : Option α) : Value := (value.map encode).getD .null

def optionalEntry (name : String) (encode : α → Value) (value : Option α) :
    List (String × Value) :=
  (value.map (fun value => (name, encode value))).toList

def unexpected : Value → String
  | .null => "null"
  | .bool b => "boolean `" ++ toString b ++ "`"
  | .number (.int n) => "integer `" ++ toString n ++ "`"
  | .number (.decimal text) => "floating point `" ++ text ++ "`"
  | .string s => "string " ++ Text.debug s
  | .array _ => "sequence"
  | .object _ => "map"

def invalidType (value : Value) (expected : String) : String :=
  "invalid type: " ++ unexpected value ++ ", expected " ++ expected

def string : Decoder String
  | .string s => .ok s
  | other => .error (invalidType other "a string")

def boolean : Decoder Bool
  | .bool b => .ok b
  | other => .error (invalidType other "a boolean")

def bounded (type : String) (bound : Nat) : Decoder Nat
  | .number (.int n) =>
    if 0 ≤ n ∧ n ≤ bound then .ok n.toNat
    else .error ("invalid value: integer `" ++ toString n ++ "`, expected " ++ type)
  | other => .error (invalidType other type)

def u32 : Decoder Nat := bounded "u32" 4294967295

def u64 : Decoder Nat := bounded "u64" 18446744073709551615

def list (decode : Decoder α) : Decoder (List α)
  | .array items => items.mapM decode
  | other => .error (invalidType other "a sequence")

def option (decode : Decoder α) : Decoder (Option α)
  | .null => .ok none
  | value => some <$> decode value

def oneOf : List String → String
  | [] => "there are no variants"
  | [name] => "expected `" ++ name ++ "`"
  | [name, other] => "expected `" ++ name ++ "` or `" ++ other ++ "`"
  | names => "expected one of " ++ ", ".intercalate (names.map (fun name => "`" ++ name ++ "`"))

def named (variants : List (String × α)) (name : String) : Except String α :=
  okOr (variants.lookup name)
    ("unknown variant `" ++ name ++ "`, " ++ oneOf (variants.map Prod.fst))

def variant (variants : List (String × α)) : Decoder α
  | .string name => named variants name
  | .object [(name, .null)] => named variants name
  | .object [(_, value)] => .error (invalidType value "unit")
  | .object _ => .error "invalid value: map, expected map with a single key"
  | other => .error (invalidType other "string or map")

def record (name : String) (fields : List String) (required : Nat) : Decoder Value
  | .object entries => .ok (.object entries)
  | .array items =>
    if items.length < required then
      .error ("invalid length " ++ toString items.length ++ ", expected struct " ++ name ++
        " with " ++ toString fields.length ++ " elements")
    else if fields.length < items.length then
      .error ("invalid length " ++ toString items.length ++ ", expected fewer elements in array")
    else .ok (.object (fields.zip items))
  | other => .error (invalidType other ("struct " ++ name))

def denyUnknown (fields : List String) : Value → Except String Unit
  | .object entries =>
    forM entries (fun entry => ensure (entry.1 ∈ fields)
      ("unknown field `" ++ entry.1 ++ "`, " ++ oneOf fields))
  | _ => .ok ()

def field (name : String) (decode : Decoder α) (value : Value) : Except String α := do
  let found ← okOr (value.get name) ("missing field `" ++ name ++ "`")
  decode found

def nullable (name : String) (decode : Decoder α) (value : Value) : Except String (Option α) :=
  option decode ((value.get name).getD .null)

def defaulted (name : String) (default : α) (decode : Decoder α) (value : Value) :
    Except String α :=
  match value.get name with
  | none => .ok default
  | some found => decode found

@[simp] theorem ok_bind {β : Type} (a : α) (f : α → Except String β) :
    (Except.ok a >>= f) = f a := rfl

@[simp] theorem record_object (name : String) (fields : List String) (required : Nat)
    (entries : List (String × Value)) :
    record name fields required (.object entries) = .ok (.object entries) := rfl

@[simp] theorem get_cons (key name : String) (value : Value) (entries : List (String × Value)) :
    (Value.object ((name, value) :: entries)).get key =
      if name = key then some value else (Value.object entries).get key := by
  by_cases same : name = key
  · simp [Value.get,same]
  · simp [Value.get,same]

@[simp] theorem get_nil (key : String) : (Value.object []).get key = none := rfl

@[simp] theorem get_optionalEntry (key name : String) (encode : α → Value) (value : Option α)
    (entries : List (String × Value)) :
    (Value.object (optionalEntry name encode value ++ entries)).get key =
      if name = key then (value.map encode).or ((Value.object entries).get key)
      else (Value.object entries).get key := by
  cases value with
  | none | some => simp [optionalEntry]

@[simp] theorem get_lastEntry (key name : String) (encode : α → Value) (value : Option α) :
    (Value.object (optionalEntry name encode value)).get key =
      if name = key then value.map encode else none := by
  have appended := get_optionalEntry key name encode value []
  simpa using appended

@[simp] theorem boolean_bool (b : Bool) : boolean (.bool b) = .ok b := rfl

@[simp] theorem string_string (s : String) : string (.string s) = .ok s := rfl

theorem bounded_unsigned {type : String} {n bound : Nat} (small : n ≤ bound) :
    bounded type bound (unsigned n) = .ok n := by
  simp [bounded,unsigned,small]

theorem bounded_le {type : String} {n bound : Nat} {value : Value}
    (h : bounded type bound value = .ok n) : n ≤ bound := by
  unfold bounded at h
  split at h
  · split at h
    · next inside =>
        cases h
        omega
    · cases h
  · cases h

theorem u64_unsigned {n : Nat} (small : n ≤ 18446744073709551615) :
    u64 (unsigned n) = .ok n :=
  bounded_unsigned small

theorem denyUnknown_object {fields : List String} {entries : List (String × Value)}
    (known : ∀ entry ∈ entries, entry.1 ∈ fields) :
    denyUnknown fields (.object entries) = .ok () :=
  forM_ok_of fun entry listed => ensure_ok.mpr (known entry listed)

variable {decode : Decoder α} {encode : α → Value}

theorem option_some {value : Value} {a : α} (h : option decode value = .ok (some a)) :
    decode value = .ok a := by
  unfold option at h
  split at h
  · cases h
  · obtain ⟨_,decoded,same⟩ := map_ok.mp h
    cases same
    exact decoded

theorem list_array {xs : List α} (each : ∀ x ∈ xs, decode (encode x) = .ok x) :
    list decode (.array (xs.map encode)) = .ok xs := by
  unfold list
  induction xs with
  | nil => rfl
  | cons x rest ih =>
    have first := each x List.mem_cons_self
    have others := ih fun y listed => each y (List.mem_cons_of_mem _ listed)
    simp only [List.map_cons,List.mapM_cons,bind_ok,pure_ok]
    exact ⟨x,first,rest,others,rfl⟩

theorem option_optionalValue {value : Option α} (solid : ∀ x ∈ value, encode x ≠ .null)
    (each : ∀ x ∈ value, decode (encode x) = .ok x) :
    option decode (optionalValue encode value) = .ok value := by
  cases value with
  | none => rfl
  | some x =>
    have decoded := each x rfl
    have nonnull := solid x rfl
    simp only [optionalValue,Option.map_some,Option.getD_some]
    unfold option
    split
    · next null => exact absurd null nonnull
    · rw [decoded]
      rfl

@[simp] theorem list_text (texts : List String) :
    list string (.array (texts.map .string)) = .ok texts :=
  list_array fun _ _ => rfl

@[simp] theorem option_text (value : Option String) :
    option string (optionalValue .string value) = .ok value :=
  option_optionalValue (fun _ _ => nofun) fun _ _ => rfl

@[simp] theorem option_entry (value : Option String) :
    option string ((value.map .string).getD .null) = .ok value :=
  option_text value

end Serde
