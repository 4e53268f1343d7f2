import Mathlib.Tactic.Common

namespace Shell

open List

inductive Piece where
  | literal (c : Char)
  | active (c : Char)
  deriving DecidableEq, Repr

def Piece.char : Piece → Char
  | .literal c => c
  | .active c => c

inductive Token where
  | word (pieces : List Piece)
  | operator (c : Char)
  | newline
  deriving DecidableEq, Repr

inductive Mode where
  | plain
  | single
  | double
  | escape
  | doubleEscape
  | comment
  deriving DecidableEq, Repr

structure Lexer where
  mode : Mode
  word : Option (List Piece)
  tokens : List Token
  deriving DecidableEq, Repr

def blanks : List Char := [' ', '\t']

def operators : List Char := ['&', '|', ';', '<', '>', '(', ')']

def expanders : List Char := ['$', Char.ofNat 96]

def patterns : List Char := ['*', '?', '[', '~', '{', '}', '!']

def nul : Char := Char.ofNat 0

namespace Lexer

def start : Lexer := ⟨.plain, none, []⟩

def into (mode : Mode) (l : Lexer) : Lexer := { l with mode := mode, word := some (l.word.getD []) }

def push (piece : Piece) (l : Lexer) : Lexer := { l with word := some (l.word.getD [] ++ [piece]) }

def delimit (l : Lexer) : Lexer :=
  { l with word := none, tokens := l.tokens ++ (l.word.map Token.word).toList }

def emit (token : Token) (l : Lexer) : Lexer := { l with tokens := l.tokens ++ [token] }

def readPlain (c : Char) (l : Lexer) : Lexer :=
  if c = '\'' then l.into .single
  else if c = '"' then l.into .double
  else if c = '\\' then { l with mode := .escape }
  else if c ∈ blanks then l.delimit
  else if c = '\n' then l.delimit.emit .newline
  else if c ∈ operators then l.delimit.emit (.operator c)
  else if c = '#' ∧ l.word = none then { l with mode := .comment }
  else if c ∈ expanders ∨ c ∈ patterns then l.push (.active c)
  else l.push (.literal c)

def readDouble (c : Char) (l : Lexer) : Lexer :=
  if c = '"' then { l with mode := .plain }
  else if c = '\\' then { l with mode := .doubleEscape }
  else if c ∈ expanders then l.push (.active c)
  else l.push (.literal c)

def read (l : Lexer) (c : Char) : Option Lexer :=
  if c = nul then none
  else
    match l.mode with
    | .plain => some (l.readPlain c)
    | .single => some (if c = '\'' then { l with mode := .plain } else l.push (.literal c))
    | .double => some (l.readDouble c)
    | .escape =>
      let l := { l with mode := .plain }
      some (if c = '\n' then l else l.push (.literal c))
    | .doubleEscape =>
      let l := { l with mode := .double }
      some (if c = '\n' then l
        else if c ∈ expanders ∨ c = '"' ∨ c = '\\' then l.push (.literal c)
        else (l.push (.literal '\\')).push (.literal c))
    | .comment =>
      some (if c = '\n' then { l with mode := .plain, tokens := l.tokens ++ [.newline] } else l)

def finish (l : Lexer) : Option (List Token) :=
  if l.mode = .plain ∨ l.mode = .comment then some l.delimit.tokens else none

end Lexer

def tokenise (text : List Char) : Option (List Token) := do
  let l ← text.foldlM Lexer.read Lexer.start
  l.finish

def removeQuotes (pieces : List Piece) : String := String.ofList (pieces.map Piece.char)

theorem removeQuotes_literal (s : String) : removeQuotes (s.toList.map .literal) = s := by
  have same : Piece.char ∘ Piece.literal = id := rfl
  rw [removeQuotes,map_map,same,map_id,String.ofList_toList]

def specials : List Char :=
  ['\'', '"', '\\', '\n', '#', nul] ++ blanks ++ operators ++ expanders ++ patterns

namespace Lexer

variable {c : Char} {chars : List Char} {pieces : List Piece} {tokens : List Token}

theorem read_ordinary (ordinary : c ∉ specials) (l : Lexer) (plain : l.mode = .plain) :
    l.read c = some (l.push (.literal c)) := by
  simp only [specials,mem_append,mem_cons,not_mem_nil,not_or] at ordinary
  simp [read,readPlain,plain,ordinary]

theorem read_word (ordinary : ∀ c ∈ chars, c ∉ specials) :
    chars.foldlM read ⟨.plain, some pieces, tokens⟩ =
      some ⟨.plain, some (pieces ++ chars.map .literal), tokens⟩ := by
  induction chars generalizing pieces with
  | nil => simp
  | cons c rest ih =>
    rw [foldlM_cons,read_ordinary (ordinary c mem_cons_self) _ rfl]
    refine (ih fun c listed => ordinary c (mem_cons_of_mem _ listed)).trans ?_
    simp

theorem read_blank (blank : c ∈ blanks) (l : Lexer) (plain : l.mode = .plain) :
    l.read c = some l.delimit := by
  simp only [blanks,mem_cons,not_mem_nil,or_false] at blank
  rcases blank with rfl | rfl
  · simp [read,readPlain,plain,blanks,nul]
  · simp [read,readPlain,plain,blanks,nul]

theorem read_blanks (blank : ∀ c ∈ chars, c ∈ blanks) :
    chars.foldlM read ⟨.plain, none, tokens⟩ = some ⟨.plain, none, tokens⟩ := by
  induction chars with
  | nil => rfl
  | cons c rest ih =>
    rw [foldlM_cons,read_blank (blank c mem_cons_self) _ rfl]
    refine Eq.trans ?_ (ih fun c listed => blank c (mem_cons_of_mem _ listed))
    simp [delimit]

theorem read_end (blank : ∀ c ∈ chars, c ∈ blanks) :
    (chars.foldlM read ⟨.plain, some pieces, tokens⟩).bind finish =
      some (tokens ++ [.word pieces]) := by
  cases chars with
  | nil => rfl
  | cons c rest =>
    rw [foldlM_cons,read_blank (blank c mem_cons_self) _ rfl]
    have skipped := @read_blanks rest (tokens ++ [.word pieces])
      fun c listed => blank c (mem_cons_of_mem _ listed)
    refine (congrArg (·.bind finish) skipped).trans ?_
    simp [finish,delimit]

end Lexer

theorem tokenise_word {before text after : List Char} {pieces : List Piece}
    (left : ∀ c ∈ before, c ∈ blanks) (right : ∀ c ∈ after, c ∈ blanks)
    (reads : text.foldlM Lexer.read Lexer.start = some ⟨.plain, some pieces, []⟩) :
    tokenise (before ++ text ++ after) = some [.word pieces] := by
  have first : (before ++ text).foldlM Lexer.read Lexer.start = some ⟨.plain,some pieces,[]⟩ := by
    rw [foldlM_append,Lexer.start,Lexer.read_blanks left]
    exact reads
  have ended := @Lexer.read_end after pieces [] right
  rw [tokenise,foldlM_append,first]
  exact ended

end Shell
