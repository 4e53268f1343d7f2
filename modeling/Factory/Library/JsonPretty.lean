import Factory.Library.JsonCompact

namespace JsonPretty

open Json

def line (depth : Nat) : List Char := '\n' :: List.replicate (2 * depth) ' '

mutual

def pretty (depth : Nat) : Value → List Char
  | .array [] => ['[', ']']
  | .array (x :: xs) =>
    '[' :: (line (depth + 1) ++ pretty (depth + 1) x ++ prettyItems (depth + 1) xs ++
      line depth ++ [']'])
  | .object [] => ['\x7b', '\x7d']
  | .object ((k, x) :: fs) =>
    '\x7b' :: (line (depth + 1) ++ JsonCompact.quote k ++ [':', ' '] ++ pretty (depth + 1) x ++
      prettyFields (depth + 1) fs ++ line depth ++ ['\x7d'])
  | .null => JsonCompact.compact .null
  | .bool b => JsonCompact.compact (.bool b)
  | .number n => JsonCompact.compact (.number n)
  | .string s => JsonCompact.compact (.string s)

def prettyItems (depth : Nat) : List Value → List Char
  | [] => []
  | x :: xs => ',' :: (line depth ++ pretty depth x ++ prettyItems depth xs)

def prettyFields (depth : Nat) : List (String × Value) → List Char
  | [] => []
  | (k, x) :: fs =>
    ',' :: (line depth ++ JsonCompact.quote k ++ [':', ' '] ++ pretty depth x ++
      prettyFields depth fs)

end

def render (value : Value) : String := String.ofList (pretty 0 value)

end JsonPretty
