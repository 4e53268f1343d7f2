import Mathlib.Data.List.Basic
import Mathlib.Logic.Function.Basic

namespace LastWrite

variable {κ α : Type} [DecidableEq κ]

def writes (entries : List (κ × α)) (now : κ → α) : κ → α :=
  entries.foldl (fun now entry => Function.update now entry.1 entry.2) now

variable {entries more : List (κ × α)} {now : κ → α} {key : κ}

theorem writes_cons {entry : κ × α} :
    writes (entry :: entries) now = writes entries (Function.update now entry.1 entry.2) := rfl

theorem writes_append : writes (entries ++ more) now = writes more (writes entries now) := by
  rw [writes,List.foldl_append]
  rfl

theorem writes_apply :
    writes entries now key =
      ((entries.filter (fun entry => entry.1 = key)).getLast?.map Prod.snd).getD (now key) := by
  induction entries generalizing now with
  | nil => rfl
  | cons entry rest ih =>
    rw [writes_cons,ih]
    by_cases same : entry.1 = key
    · subst same
      rw [List.filter_cons_of_pos (by simp),List.getLast?_cons,Function.update_self]
      cases (rest.filter (fun later => later.1 = entry.1)).getLast? <;> rfl
    · rw [List.filter_cons_of_neg (by simpa using same),
        Function.update_of_ne (fun flipped => same flipped.symm)]

end LastWrite
