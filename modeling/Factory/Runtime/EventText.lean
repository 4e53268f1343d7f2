import Factory.Library.Text
import Mathlib.Algebra.BigOperators.Group.List.Basic
import Mathlib.Algebra.GroupWithZero.Nat

namespace Runtime

open List

def chunkBytes : Nat := 1024

def byteLength (chars : List Char) : Nat := (chars.map Char.utf8Size).sum

def takeBytes : Nat → List Char → List Char
  | _, [] => []
  | limit, c :: rest =>
    if c.utf8Size ≤ limit then c :: takeBytes (limit - c.utf8Size) rest else []

def utf8Prefix (limit : Nat) (chars : List Char) : Nat :=
  if (takeBytes limit chars).isEmpty then min 1 chars.length else (takeBytes limit chars).length

def drain (limit : Nat) : Nat → List Char → List (List Char) × List Char
  | 0, text => ([], text)
  | fuel + 1, text =>
    if limit ≤ byteLength text then
      let split := utf8Prefix limit text
      let rest := drain limit fuel (text.drop split)
      ((if (text.take split).isEmpty then [] else [text.take split]) ++ rest.1, rest.2)
    else ([], text)

structure StreamKey where
  kind : String
  item : String
  part : Option Int
  deriving DecidableEq

structure TextChunk where
  key : StreamKey
  text : String
  deriving DecidableEq

structure TextCoalescer where
  pending : Option TextChunk
  limit : Nat
  deriving DecidableEq

namespace TextCoalescer

def new : TextCoalescer := ⟨none, chunkBytes⟩

def flush (coalescer : TextCoalescer) : Option TextChunk × TextCoalescer :=
  (coalescer.pending.filter (fun chunk => chunk.text ≠ ""), { coalescer with pending := none })

def switch (key : StreamKey) (coalescer : TextCoalescer) : Option TextChunk × TextCoalescer :=
  if coalescer.pending.any (fun chunk => chunk.key ≠ key) then coalescer.flush
  else (none, coalescer)

def push (key : StreamKey) (delta : String) (coalescer : TextCoalescer) :
    List TextChunk × TextCoalescer :=
  let (flushed, coalescer) := coalescer.switch key
  let text := ((coalescer.pending.map (·.text)).getD "" ++ delta).toList
  let (chunks, remainder) := drain coalescer.limit text.length text
  (flushed.toList ++ chunks.map (fun chunk => ⟨key, String.ofList chunk⟩),
    { coalescer with pending := some ⟨key, String.ofList remainder⟩ })

end TextCoalescer

def collapseNewlines : List Char → List Char
  | '\r' :: '\n' :: rest => '\n' :: collapseNewlines rest
  | c :: rest => c :: collapseNewlines rest
  | [] => []

def linesFrom : List Char → List Char → List (List Char)
  | line, [] => if line.isEmpty then [] else [line.reverse]
  | line, c :: rest =>
    if c = '\n' then line.reverse :: linesFrom [] rest else linesFrom (c :: line) rest

def lines (value : String) : List String :=
  (linesFrom [] ((collapseNewlines value.toList).map
    (fun c => if c = '\r' then '\n' else c))).map String.ofList

def compactLine (state : String × Bool) (line : String) : String × Bool :=
  let line := Text.trimEnd line
  if line = "" then (state.1, state.2 || state.1 ≠ "")
  else
    let separator := if state.1 = "" then "" else if state.2 then "\n\n" else "\n"
    (state.1 ++ separator ++ line, false)

def compact (value : String) : Option String :=
  let output := ((lines value).foldl compactLine ("", false)).1
  if output = "" then none else some output

def brief (value : String) : String :=
  let value := (compact value).getD ""
  let split := utf8Prefix (chunkBytes - 3) value.toList
  if split = value.length then value else String.ofList (value.toList.take split) ++ "..."

theorem utf8Prefix_pos {limit : Nat} {chars : List Char} (nonempty : chars ≠ []) :
    0 < utf8Prefix limit chars := by
  unfold utf8Prefix
  split
  · exact lt_min Nat.one_pos (length_pos_of_ne_nil nonempty)
  · next taken => exact length_pos_of_ne_nil fun empty => taken (by rw [empty]; rfl)

theorem drain_flatten (limit fuel : Nat) (text : List Char) :
    (drain limit fuel text).1.flatten ++ (drain limit fuel text).2 = text := by
  induction fuel generalizing text with
  | zero => rfl
  | succ fuel ih =>
    unfold drain
    split
    · have joined := ih (text.drop (utf8Prefix limit text))
      have own : (if (text.take (utf8Prefix limit text)).isEmpty then []
          else [text.take (utf8Prefix limit text)]).flatten =
        text.take (utf8Prefix limit text) := by
        split
        · next empty => simpa using (isEmpty_iff.mp empty).symm
        · simp
      simp only [flatten_append,own,append_assoc,joined]
      exact take_append_drop _ _
    · rfl

theorem mem_drain {limit fuel : Nat} {text chunk : List Char}
    (h : chunk ∈ (drain limit fuel text).1) :
    chunk ≠ [] ∧ ∃ rest : List Char, chunk = rest.take (utf8Prefix limit rest) := by
  induction fuel generalizing text with
  | zero => cases h
  | succ fuel ih =>
    unfold drain at h
    split at h
    · rcases mem_append.mp h with own | later
      · split at own
        · cases own
        · next taken =>
          cases mem_singleton.mp own
          exact ⟨fun empty => taken (by rw [empty]; rfl),text,rfl⟩
      · exact ih later
    · cases h

theorem drain_small {limit : Nat} (positive : 0 < limit) {fuel : Nat} {text : List Char}
    (enough : text.length ≤ fuel) : byteLength (drain limit fuel text).2 < limit := by
  induction fuel generalizing text with
  | zero =>
    rw [length_eq_zero_iff.mp (Nat.le_zero.mp enough)]
    exact positive
  | succ fuel ih =>
    unfold drain
    split
    · next large =>
      refine ih ?_
      have nonempty : text ≠ [] := by
        rintro rfl
        exact absurd positive (Nat.not_lt.mpr large)
      have taken := @utf8Prefix_pos limit text nonempty
      rw [length_drop]
      omega
    · next small => exact Nat.not_le.mp small

end Runtime
