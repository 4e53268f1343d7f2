import Factory.Library.Shell

namespace Cli

open List

def plainBytes : List Char := ['_', '-', '.', '/']

def escapeQuote (c : Char) : List Char := if c = '\'' then ['\'', '"', '\'', '"', '\''] else [c]

def shellQuote (value : String) : String :=
  if value ≠ "" ∧ value.toList.all (fun c => c.isAlphanum || c ∈ plainBytes) then value
  else String.ofList ('\'' :: (value.toList.flatMap escapeQuote ++ ['\'']))

open Shell Lexer

theorem plain_ordinary {c : Char} (h : (c.isAlphanum || c ∈ plainBytes) = true) :
    c ∉ specials := by
  have all : specials.all (fun c => !(c.isAlphanum || c ∈ plainBytes)) = true := by decide
  intro special
  have clash := all_eq_true.mp all c special
  rw [h] at clash
  cases clash

theorem read_escaped {chars : List Char} {pieces : List Piece} (text : nul ∉ chars) :
    (chars.flatMap escapeQuote).foldlM read ⟨.single, some pieces, []⟩ =
      some ⟨.single, some (pieces ++ chars.map .literal), []⟩ := by
  induction chars generalizing pieces with
  | nil => simp
  | cons c rest ih =>
    simp only [mem_cons,not_or] at text
    have first : (escapeQuote c).foldlM read ⟨.single,some pieces,[]⟩ =
        some ⟨.single,some (pieces ++ [.literal c]),[]⟩ := by
      by_cases quote : c = '\''
      · subst quote
        rfl
      · simp [escapeQuote,quote,Lexer.read,Ne.symm text.1,Lexer.push]
    rw [flatMap_cons,foldlM_append,first]
    refine (ih text.2).trans ?_
    simp

theorem shellQuote_exact (value : String) (text : nul ∉ value.toList) (before after : List Char)
    (left : ∀ c ∈ before, c ∈ blanks) (right : ∀ c ∈ after, c ∈ blanks) :
    ∃ pieces, tokenise (before ++ (shellQuote value).toList ++ after) = some [.word pieces] ∧
      removeQuotes pieces = value ∧ ∀ piece ∈ pieces, ∃ c, piece = .literal c := by
  refine ⟨value.toList.map .literal,tokenise_word left right ?_,removeQuotes_literal value,?_⟩
  · unfold shellQuote
    split
    · next plain =>
        obtain ⟨nonempty,plain⟩ := plain
        have ordinary : ∀ c ∈ value.toList, c ∉ specials := fun c listed =>
          plain_ordinary (all_eq_true.mp plain c listed)
        cases chars : value.toList with
        | nil => exact absurd (String.toList_eq_nil_iff.mp chars) nonempty
        | cons c rest =>
          rw [chars] at ordinary
          rw [foldlM_cons,read_ordinary (ordinary c mem_cons_self) _ rfl]
          exact read_word fun c listed => ordinary c (mem_cons_of_mem _ listed)
    · have body := @read_escaped value.toList [] text
      rw [String.toList_ofList]
      have opened : read start '\'' = some ⟨.single,some [],[]⟩ := rfl
      rw [foldlM_cons,opened]
      show (value.toList.flatMap escapeQuote ++ ['\'']).foldlM read ⟨.single,some [],[]⟩ = _
      rw [foldlM_append,body]
      rfl
  · intro piece listed
    obtain ⟨c,-,rfl⟩ := mem_map.mp listed
    exact ⟨c,rfl⟩

theorem shellQuote_exact_apostrophe :
    ∃ pieces, tokenise (" '$(rm)'\"'\"'; x' ".toList) = some [.word pieces] ∧
      removeQuotes pieces = "$(rm)'; x" ∧ ∀ piece ∈ pieces, ∃ c, piece = .literal c :=
  shellQuote_exact "$(rm)'; x" (by decide) [' '] [' '] (by simp [blanks]) (by simp [blanks])

end Cli
