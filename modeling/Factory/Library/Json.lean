namespace Json

open List

inductive Number where
  | int (n : Int)
  | decimal (text : String)
  deriving DecidableEq, Repr

inductive Value where
  | null
  | bool (b : Bool)
  | number (n : Number)
  | string (s : String)
  | array (items : List Value)
  | object (fields : List (String × Value))
  deriving Repr

mutual

def decEqValue : (a b : Value) → Decidable (a = b)
  | .null, .null => isTrue rfl
  | .bool a, .bool b => decidable_of_iff (a = b) (by simp)
  | .number a, .number b => decidable_of_iff (a = b) (by simp)
  | .string a, .string b => decidable_of_iff (a = b) (by simp)
  | .array a, .array b => @decidable_of_iff _ (a = b) (by simp) (decEqItems a b)
  | .object a, .object b => @decidable_of_iff _ (a = b) (by simp) (decEqFields a b)
  | .null, .bool _ | .null, .number _ | .null, .string _ | .null, .array _
  | .null, .object _ => isFalse (by simp)
  | .bool _, .null | .bool _, .number _ | .bool _, .string _ | .bool _, .array _
  | .bool _, .object _ => isFalse (by simp)
  | .number _, .null | .number _, .bool _ | .number _, .string _ | .number _, .array _
  | .number _, .object _ => isFalse (by simp)
  | .string _, .null | .string _, .bool _ | .string _, .number _ | .string _, .array _
  | .string _, .object _ => isFalse (by simp)
  | .array _, .null | .array _, .bool _ | .array _, .number _ | .array _, .string _
  | .array _, .object _ => isFalse (by simp)
  | .object _, .null | .object _, .bool _ | .object _, .number _ | .object _, .string _
  | .object _, .array _ => isFalse (by simp)

def decEqItems : (a b : List Value) → Decidable (a = b)
  | [], [] => isTrue rfl
  | [], _ :: _ => isFalse (by simp)
  | _ :: _, [] => isFalse (by simp)
  | x :: xs, y :: ys =>
    match decEqValue x y, decEqItems xs ys with
    | isTrue h, isTrue t => isTrue (by rw [h, t])
    | isFalse h, _ => isFalse (by simp [h])
    | _, isFalse t => isFalse (by simp [t])

def decEqFields : (a b : List (String × Value)) → Decidable (a = b)
  | [], [] => isTrue rfl
  | [], _ :: _ => isFalse (by simp)
  | _ :: _, [] => isFalse (by simp)
  | (k, x) :: xs, (l, y) :: ys =>
    match instDecidableEqString k l, decEqValue x y, decEqFields xs ys with
    | isTrue e, isTrue h, isTrue t => isTrue (by rw [e, h, t])
    | isFalse e, _, _ => isFalse (by simp [e])
    | _, isFalse h, _ => isFalse (by simp [h])
    | _, _, isFalse t => isFalse (by simp [t])

end

instance : DecidableEq Value := decEqValue

def Value.get (key : String) : Value → Option Value
  | .object fields => (fields.find? (fun f => f.1 = key)).map Prod.snd
  | _ => none

def Value.asStr : Value → Option String
  | .string s => some s
  | _ => none

def Value.asU64 : Value → Option Nat
  | .number (.int n) => if 0 ≤ n ∧ n ≤ 18446744073709551615 then some n.toNat else none
  | _ => none

def Value.isArray : Value → Bool
  | .array _ => true
  | _ => false

def Value.asArray : Value → Option (List Value)
  | .array items => some items
  | _ => none

def Value.asObject : Value → Option (List (String × Value))
  | .object fields => some fields
  | _ => none

def Value.text (key : String) (value : Value) : Option String := (value.get key).bind Value.asStr

def Value.remove (key : String) : Value → Value
  | .object fields => .object (fields.filter (fun f => f.1 ≠ key))
  | other => other

def Value.set (target : Value) (key : String) (value : Value) : Value :=
  match target with
  | .object fields =>
    if fields.any (fun f => f.1 = key) then
      .object (fields.map (fun f => if f.1 = key then (key, value) else f))
    else .object (fields ++ [(key, value)])
  | other => other

open Value

theorem Value.get_set_self (key : String) (value : Value) (fields : List (String × Value)) :
    ((object fields).set key value).get key = some value := by
  by_cases present : fields.any (fun f => f.1 = key) = true
  · rw [set,if_pos present,get,find?_map]
    obtain ⟨field,mem,hit⟩ := any_eq_true.mp present
    cases found : fields.find? ((fun f => decide (f.1 = key)) ∘
        fun f => if f.1 = key then (key, value) else f) with
    | none =>
      have miss := find?_eq_none.mp found field mem
      simp [of_decide_eq_true hit] at miss
    | some other =>
      have hit := find?_some found
      by_cases same : other.1 = key
      · simp [same]
      · simp [same] at hit
  · rw [set,if_neg present,get,find?_append]
    have absent : fields.find? (fun f => decide (f.1 = key)) = none :=
      find?_eq_none.mpr fun field mem hit =>
        present (any_eq_true.mpr ⟨field,mem,hit⟩)
    simp [absent]

theorem Value.set_object (fields : List (String × Value)) (key : String) (value : Value) :
    ∃ fields', (object fields).set key value = .object fields' := by
  simp only [set]
  split
  · exact ⟨_,rfl⟩
  · exact ⟨_,rfl⟩

theorem Value.get_set_other {key other : String} (different : other ≠ key) (value : Value)
    (fields : List (String × Value)) :
    ((object fields).set key value).get other = (object fields).get other := by
  by_cases present : fields.any (fun f => f.1 = key) = true
  · rw [set,if_pos present,get,get]
    clear present
    induction fields with
    | nil => rfl
    | cons field rest ih =>
      rw [map_cons,find?_cons,find?_cons]
      by_cases same : field.1 = key
      · simpa [same,different.symm] using ih
      · by_cases hit : field.1 = other
        · simp [hit,different]
        · simpa [same,hit] using ih
  · rw [set,if_neg present,get,get,find?_append]
    simp [different.symm]

def escapeChar (c : Char) : List Char :=
  match c with
  | '"' => ['\\', '"']
  | '\\' => ['\\', '\\']
  | '\n' => ['\\', 'n']
  | '\r' => ['\\', 'r']
  | '\t' => ['\\', 't']
  | c => [c]

def quote (s : String) : String := String.ofList ('"' :: s.toList.flatMap escapeChar ++ ['"'])

def Number.render : Number → String
  | .int n => toString n
  | .decimal text => text

mutual

def render : Value → String
  | .null => "null"
  | .bool b => if b then "true" else "false"
  | .number n => n.render
  | .string s => quote s
  | .array items => "[" ++ renderItems items ++ "]"
  | .object fields => "\x7b" ++ renderFields fields ++ "\x7d"

def renderItems : List Value → String
  | [] => ""
  | [x] => render x
  | x :: xs => render x ++ ", " ++ renderItems xs

def renderFields : List (String × Value) → String
  | [] => ""
  | [(k, x)] => quote k ++ ": " ++ render x
  | (k, x) :: xs => quote k ++ ": " ++ render x ++ ", " ++ renderFields xs

end

def Value.path : List String → Value → Option Value
  | [], v => some v
  | key :: keys, v => (v.get key).bind (path keys)

def Value.pathText (keys : List String) (v : Value) : Option String :=
  match v.path keys with
  | none => none
  | some .null => none
  | some (.string s) => some s
  | some other => some (render other)

end Json
