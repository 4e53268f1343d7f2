import Mathlib.Data.List.DropRight

namespace Text

open List String

def isWhitespace (c : Char) : Bool :=
  let n := c.toNat
  (9 ≤ n && n ≤ 13) || n == 0x20 || n == 0x85 || n == 0xa0 || n == 0x1680 ||
    (0x2000 ≤ n && n ≤ 0x200a) || n == 0x2028 || n == 0x2029 || n == 0x202f ||
    n == 0x205f || n == 0x3000

def isBlank (s : String) : Bool := s.toList.all isWhitespace

def trimStart (s : String) : String := ofList (s.toList.dropWhile isWhitespace)

def trimEnd (s : String) : String :=
  ofList (s.toList.reverse.dropWhile isWhitespace).reverse

def trim (s : String) : String := trimEnd (trimStart s)

def stripPrefix (start s : String) : Option String :=
  if start.toList.isPrefixOf s.toList then some (ofList (s.toList.drop start.length))
  else none

def endsWith (c : Char) (s : String) : Bool := s.toList.getLast? = some c

def unprintable : List (Nat × Nat) :=
  [(0x0, 0x1f), (0x7f, 0xa0), (0xad, 0xad), (0x300, 0x36f), (0x1680, 0x1680), (0x2000, 0x200f),
    (0x2028, 0x202f), (0x205f, 0x206f), (0x3000, 0x3000), (0xd800, 0xf8ff), (0xfe00, 0xfe0f),
    (0xfeff, 0xfeff), (0xe0000, 0x10ffff)]

def debugChar (c : Char) : List Char :=
  match c with
  | '"' => ['\\', '"']
  | '\\' => ['\\', '\\']
  | '\n' => ['\\', 'n']
  | '\r' => ['\\', 'r']
  | '\t' => ['\\', 't']
  | c =>
    if c.toNat = 0 then ['\\', '0']
    else if unprintable.any (fun range => range.1 ≤ c.toNat && c.toNat ≤ range.2) then
      ['\\', 'u', '\x7b'] ++ Nat.toDigits 16 c.toNat ++ ['\x7d']
    else [c]

def debug (s : String) : String :=
  ofList ('"' :: s.toList.flatMap debugChar ++ ['"'])

theorem trimEnd_eq_self {s : String} :
    trimEnd s = s ↔ s.toList.reverse.dropWhile isWhitespace = s.toList.reverse := by
  unfold trimEnd
  constructor
  · intro same
    have chars := congrArg toList same
    rw [toList_ofList] at chars
    rw [← reverse_inj,reverse_reverse]
    exact chars
  · intro same
    rw [same,reverse_reverse,ofList_toList]

theorem trimEnd_trimEnd (s : String) : trimEnd (trimEnd s) = trimEnd s := by
  rw [trimEnd_eq_self]
  unfold trimEnd
  rw [toList_ofList,reverse_reverse,dropWhile_idempotent]

theorem trimEnd_trim (s : String) : trimEnd (trim s) = trim s :=
  trimEnd_trimEnd (trimStart s)

theorem trimEnd_eq_empty {s : String} : trimEnd s = "" ↔ isBlank s = true := by
  rw [trimEnd,isBlank,← toList_eq_nil_iff,toList_ofList,reverse_eq_nil_iff,
    dropWhile_eq_nil_iff,all_eq_true]
  simp

theorem isBlank_trimEnd {s : String} : isBlank (trimEnd s) = isBlank s := by
  rw [Bool.eq_iff_iff,← trimEnd_eq_empty,← trimEnd_eq_empty,trimEnd_trimEnd]

theorem trimEnd_append {s t : String} (trimmed : trimEnd t = t) (nonempty : t ≠ "") :
    trimEnd (s ++ t) = s ++ t := by
  rw [trimEnd_eq_self] at trimmed ⊢
  rw [toList_append,reverse_append]
  cases chars : t.toList.reverse with
  | nil =>
    have empty := reverse_eq_nil_iff.mp chars
    exact absurd (toList_eq_nil_iff.mp empty) nonempty
  | cons c rest =>
    rw [chars] at trimmed
    by_cases blank : isWhitespace c = true
    · rw [dropWhile_cons_of_pos blank] at trimmed
      have shorter := length_dropWhile_le isWhitespace rest
      rw [trimmed,length_cons] at shorter
      omega
    · rw [cons_append,dropWhile_cons_of_neg blank]

theorem mem_splitOnPPrepend {chars line piece : List Char} {c : Char}
    (h : piece ∈ chars.splitOnPPrepend (· == '\n') line) (inside : c ∈ piece) :
    c ∈ line ∨ c ∈ chars ∧ c ≠ '\n' := by
  induction chars generalizing line with
  | nil =>
    cases mem_singleton.mp h
    exact .inl (mem_reverse.mp inside)
  | cons next rest ih =>
    rw [splitOnPPrepend_cons_eq_if] at h
    split at h
    · rcases mem_cons.mp h with rfl | later
      · exact .inl (mem_reverse.mp inside)
      · exact .inr ((ih later).resolve_left not_mem_nil |>.imp_left (mem_cons_of_mem _))
    · next other =>
      rcases ih h with own | ⟨found,apart⟩
      · rcases mem_cons.mp own with rfl | earlier
        · exact .inr ⟨mem_cons_self,by simpa using other⟩
        · exact .inl earlier
      · exact .inr ⟨mem_cons_of_mem _ found,apart⟩

end Text
