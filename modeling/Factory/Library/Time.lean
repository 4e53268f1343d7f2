namespace Time

def pad (width n : Nat) : String :=
  let digits := toString n
  String.ofList (List.replicate (width - digits.length) '0') ++ digits

def civilFromDays (days : Int) : Int × Nat × Nat :=
  let z := days + 719468
  let era := z / 146097
  let dayOfEra := (z % 146097).toNat
  let yearOfEra := (dayOfEra - dayOfEra / 1460 + dayOfEra / 36524 - dayOfEra / 146096) / 365
  let dayOfYear := dayOfEra - (365 * yearOfEra + yearOfEra / 4 - yearOfEra / 100)
  let shifted := (5 * dayOfYear + 2) / 153
  let day := dayOfYear - (153 * shifted + 2) / 5 + 1
  let month := if shifted < 10 then shifted + 3 else shifted - 9
  let year := (yearOfEra : Int) + era * 400
  (if month ≤ 2 then year + 1 else year, month, day)

def renderYear (year : Int) : String :=
  if 0 ≤ year ∧ year ≤ 9999 then pad 4 year.toNat
  else (if year < 0 then "-" else "+") ++ pad 4 year.natAbs

def renderFraction (micros : Nat) : String :=
  if micros = 0 then ""
  else if micros % 1000 = 0 then "." ++ pad 3 (micros / 1000)
  else "." ++ pad 6 micros

def rfc3339 (micros : Int) : String :=
  let (year, month, day) := civilFromDays (micros / 86400000000)
  let ofDay := (micros % 86400000000).toNat
  let seconds := ofDay / 1000000
  renderYear year ++ "-" ++ pad 2 month ++ "-" ++ pad 2 day ++ "T" ++
    pad 2 (seconds / 3600) ++ ":" ++ pad 2 (seconds / 60 % 60) ++ ":" ++ pad 2 (seconds % 60) ++
    renderFraction (ofDay % 1000000) ++ "Z"

example : rfc3339 1709210096123000 = "2024-02-29T12:34:56.123Z" := by decide

end Time
