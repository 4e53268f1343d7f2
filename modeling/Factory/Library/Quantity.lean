import Mathlib.Tactic.Common

namespace Quantities

open List

inductive Suffix where
  | milli
  | one
  | kilo
  | mega
  | giga
  | mebi
  | gibi
  | tebi
  | pebi
  deriving DecidableEq, Repr

inductive Family where
  | decimal
  | binary
  deriving DecidableEq, Repr

def Suffix.text : Suffix → String
  | .milli => "m"
  | .one => ""
  | .kilo => "k"
  | .mega => "M"
  | .giga => "G"
  | .mebi => "Mi"
  | .gibi => "Gi"
  | .tebi => "Ti"
  | .pebi => "Pi"

def Suffix.factor : Suffix → Nat
  | .milli | .mebi => 1
  | .one => 1000
  | .kilo => 1000000
  | .mega => 1000000000
  | .giga => 1000000000000
  | .gibi => 1024
  | .tebi => 1048576
  | .pebi => 1073741824

def Suffix.family : Suffix → Family
  | .milli | .one | .kilo | .mega | .giga => .decimal
  | .mebi | .gibi | .tebi | .pebi => .binary

def Family.descending : Family → List Suffix
  | .decimal => [.giga, .mega, .kilo, .one, .milli]
  | .binary => [.pebi, .tebi, .gibi, .mebi]

def Family.least : Family → Suffix
  | .decimal => .milli
  | .binary => .mebi

structure Quantity where
  mantissa : Nat
  suffix : Suffix
  deriving DecidableEq, Repr

structure Amount where
  family : Family
  units : Nat
  deriving DecidableEq, Repr

def Quantity.text (q : Quantity) : String := toString q.mantissa ++ q.suffix.text

def Quantity.amount (q : Quantity) : Amount := ⟨q.suffix.family, q.mantissa * q.suffix.factor⟩

def Amount.canonical (a : Amount) : Quantity :=
  let suffix := (a.family.descending.find? (fun s => a.units % s.factor = 0)).getD a.family.least
  ⟨a.units / suffix.factor, suffix⟩

def suffixes : List (List Char × Suffix) :=
  [.milli, .one, .kilo, .mega, .giga, .mebi, .gibi, .tebi, .pebi].map
    (fun s : Suffix => (s.text.toList, s))

def parse (text : String) : Option Quantity := do
  let digits := text.toList.takeWhile Char.isDigit
  let suffix ← suffixes.lookup (text.toList.drop digits.length)
  if digits = [] then none else some ⟨Nat.ofDigitChars 10 digits 0, suffix⟩

def reserialise (text : String) : String :=
  ((parse text).map (·.amount.canonical.text)).getD text

theorem parse_text (q : Quantity) : parse q.text = some q := by
  obtain ⟨mantissa,suffix⟩ := q
  have chars : (Quantity.text ⟨mantissa,suffix⟩).toList =
      Nat.toDigits 10 mantissa ++ suffix.text.toList := by
    rw [Quantity.text,String.toList_append,Nat.toString_eq_repr,Nat.toList_repr]
  have digits : (Nat.toDigits 10 mantissa ++ suffix.text.toList).takeWhile Char.isDigit =
      Nat.toDigits 10 mantissa := by
    have own : ∀ c ∈ Nat.toDigits 10 mantissa, c.isDigit = true := fun c listed =>
      Nat.isDigit_of_mem_toDigits (by omega) (by omega) listed
    rw [takeWhile_append_of_pos own]
    cases suffix <;> simp [Suffix.text]
  have nonempty : Nat.toDigits 10 mantissa ≠ [] := Nat.toDigits_ne_nil
  have found : suffixes.lookup suffix.text.toList = some suffix := by
    cases suffix <;> decide
  simp [parse,chars,digits,nonempty,found,Nat.ofDigitChars_ten_toDigits]

theorem canonical_amount (a : Amount) : a.canonical.amount = a := by
  obtain ⟨family,units⟩ := a
  unfold Amount.canonical
  cases found : family.descending.find? (fun s => units % s.factor = 0) with
  | none =>
    cases family with
    | decimal | binary => simp [Quantity.amount,Family.least,Suffix.family,Suffix.factor]
  | some suffix =>
    have divides : units % suffix.factor = 0 := by simpa using find?_some found
    have member : suffix.family = family := by
      have own : ∀ s ∈ family.descending, s.family = family := by cases family <;> decide
      exact own suffix (mem_of_find?_eq_some found)
    simp [Quantity.amount,member,Nat.div_mul_cancel (Nat.dvd_of_mod_eq_zero divides)]

theorem reserialise_canonical (a : Amount) : reserialise a.canonical.text = a.canonical.text := by
  rw [reserialise,parse_text,Option.map_some,canonical_amount,Option.getD_some]

theorem canonical_text (q : Quantity) :
    (∃ a : Amount, a.canonical.text = q.text) ↔ q.amount.canonical = q := by
  constructor
  · rintro ⟨a,same⟩
    have read := congrArg parse same
    rw [parse_text,parse_text] at read
    rw [← Option.some.inj read,canonical_amount]
  · exact fun same => ⟨q.amount,congrArg Quantity.text same⟩

end Quantities
