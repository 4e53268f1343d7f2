import Factory.Library.Json

namespace JsonCompact

open Json List

def hexDigit (n : Nat) : Char :=
  if n < 10 then Char.ofNat (48 + n) else Char.ofNat (87 + n)

def escape (c : Char) : List Char :=
  match c with
  | '"' => ['\\', '"']
  | '\\' => ['\\', '\\']
  | '\n' => ['\\', 'n']
  | '\r' => ['\\', 'r']
  | '\t' => ['\\', 't']
  | c =>
    if c.toNat = 8 then ['\\', 'b']
    else if c.toNat = 12 then ['\\', 'f']
    else if c.toNat < 32 then
      ['\\', 'u', '0', '0', hexDigit (c.toNat / 16), hexDigit (c.toNat % 16)]
    else [c]

def quote (s : String) : List Char := '"' :: (s.toList.flatMap escape ++ ['"'])

mutual

def compact : Value → List Char
  | .null => "null".toList
  | .bool b => (if b then "true" else "false").toList
  | .number n => n.render.toList
  | .string s => quote s
  | .array items => '[' :: (compactItems items ++ [']'])
  | .object fields => '\x7b' :: (compactFields fields ++ ['\x7d'])

def compactItems : List Value → List Char
  | [] => []
  | [x] => compact x
  | x :: y :: xs => compact x ++ ',' :: compactItems (y :: xs)

def compactFields : List (String × Value) → List Char
  | [] => []
  | [(k, x)] => quote k ++ ':' :: compact x
  | (k, x) :: f :: fs => quote k ++ ':' :: compact x ++ ',' :: compactFields (f :: fs)

end

def render (value : Value) : String := String.ofList (compact value)

theorem length_escape (c : Char) : (escape c).length ≤ 6 := by
  unfold escape
  split
  · decide
  · decide
  · decide
  · decide
  · decide
  · split
    · simp
    split
    · simp
    split
    · simp
    · simp

theorem length_quote (s : String) : (quote s).length ≤ 6 * s.toList.length + 2 := by
  have escaped : ∀ chars : List Char, (chars.flatMap escape).length ≤ 6 * chars.length := by
    intro chars
    induction chars with
    | nil => simp
    | cons c rest ih =>
      have first := length_escape c
      rw [flatMap_cons,length_append,length_cons]
      omega
  have body := escaped s.toList
  simp only [quote,length_cons,length_append,length_nil]
  omega

theorem length_compactFields_cons (k : String) (x : Value) (fields : List (String × Value)) :
    (compactFields ((k, x) :: fields)).length ≤
      (quote k).length + (compact x).length + 2 + (compactFields fields).length := by
  cases fields with
  | nil =>
    simp only [compactFields,length_append,length_cons,length_nil]
    omega
  | cons field rest =>
    simp only [compactFields,length_append,length_cons]
    omega

end JsonCompact
