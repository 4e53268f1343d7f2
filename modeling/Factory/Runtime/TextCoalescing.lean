import Factory.Library.Utf8
import Factory.Runtime.EventText
import Mathlib.Data.List.Forall2
import Factory.Library.Runs

namespace Runtime

open List Utf8 TextChunk Runs

def utf8PrefixBytes (limit : Nat) (value : List Char) : Nat :=
  let bytes := encode value
  let split := floor bytes (min bytes.length limit)
  if split = 0 ∧ bytes ≠ [] then (value.head?.map Char.utf8Size).getD 0 else split

section Prefix

variable {limit : Nat} {chars : List Char}

theorem length_encode (chars : List Char) : (encode chars).length = byteLength chars := by
  induction chars with
  | nil => rfl
  | cons c rest ih =>
    rw [encode_cons,length_append,ih,String.length_utf8EncodeChar]
    simp [byteLength]

theorem byteLength_cons (c : Char) (rest : List Char) :
    byteLength (c :: rest) = c.utf8Size + byteLength rest := by
  simp [byteLength]

theorem takeBytes_eq_take (limit : Nat) (chars : List Char) :
    takeBytes limit chars = chars.take (takeBytes limit chars).length := by
  induction chars generalizing limit with
  | nil => rfl
  | cons c rest ih =>
    by_cases fits : c.utf8Size ≤ limit
    · rw [takeBytes,if_pos fits,length_cons,take_succ_cons,← ih]
    · rw [takeBytes,if_neg fits]
      rfl

theorem byteLength_takeBytes (limit : Nat) (chars : List Char) :
    byteLength (takeBytes limit chars) ≤ limit := by
  induction chars generalizing limit with
  | nil => exact Nat.zero_le _
  | cons c rest ih =>
    by_cases fits : c.utf8Size ≤ limit
    · rw [takeBytes,if_pos fits,byteLength_cons]
      have rest := ih (limit - c.utf8Size)
      omega
    · rw [takeBytes,if_neg fits]
      exact Nat.zero_le _

theorem byteLength_take_le {count : Nat} (within : byteLength (chars.take count) ≤ limit) :
    byteLength (chars.take count) ≤ byteLength (takeBytes limit chars) := by
  induction chars generalizing limit count with
  | nil =>
    rw [take_nil]
    exact Nat.zero_le _
  | cons c rest ih =>
    cases count with
    | zero => exact Nat.zero_le _
    | succ count =>
      rw [take_succ_cons,byteLength_cons] at within ⊢
      have fits : c.utf8Size ≤ limit := by omega
      rw [takeBytes,if_pos fits,byteLength_cons]
      have later := @ih (limit - c.utf8Size) count (by omega)
      omega

theorem floor_encode (limit : Nat) (chars : List Char) :
    floor (encode chars) (min (encode chars).length limit) =
      byteLength (takeBytes limit chars) := by
  have taken := takeBytes_eq_take limit chars
  have within := byteLength_takeBytes limit chars
  have short : byteLength (takeBytes limit chars) ≤ (encode chars).length := by
    rw [taken,← length_encode]
    exact length_encode_take chars _
  refine floor_eq _ (isCharBoundary_iff.mpr ⟨(takeBytes limit chars).length,?_⟩)
    (le_min short within) fun later above below => ?_
  · rw [length_encode,← taken]
  · refine Bool.eq_false_iff.mpr fun boundary => ?_
    obtain ⟨count,rfl⟩ := isCharBoundary_iff.mp boundary
    rw [length_encode] at above below
    have most := byteLength_take_le (le_trans below (min_le_right _ _))
    omega

theorem utf8PrefixBytes_eq (limit : Nat) (chars : List Char) :
    utf8PrefixBytes limit chars = byteLength (chars.take (utf8Prefix limit chars)) := by
  have taken := takeBytes_eq_take limit chars
  unfold utf8PrefixBytes utf8Prefix
  simp only [floor_encode]
  cases chars with
  | nil => rfl
  | cons c rest =>
    have nonempty : encode (c :: rest) ≠ [] := by
      intro empty
      have size := length_encode (c :: rest)
      have positive := c.utf8Size_pos
      rw [empty,byteLength_cons,length_nil] at size
      omega
    cases held : takeBytes limit (c :: rest) with
    | nil =>
      have none : byteLength ([] : List Char) = 0 := rfl
      simp [none,nonempty,byteLength_cons]
    | cons first others =>
      have positive := first.utf8Size_pos
      have some : byteLength (first :: others) ≠ 0 := by
        rw [byteLength_cons]
        omega
      rw [held] at taken
      simp only [some,false_and,if_false,isEmpty_cons,Bool.false_eq_true,← taken]

theorem take_utf8Prefix_small (chars : List Char) :
    byteLength (chars.take (utf8Prefix limit chars)) ≤ limit ∨
      (chars.take (utf8Prefix limit chars)).length ≤ 1 := by
  unfold utf8Prefix
  split
  · right
    rw [length_take]
    omega
  · left
    rw [← takeBytes_eq_take]
    exact byteLength_takeBytes limit chars

end Prefix

def splitOff : List Char → Nat → Option (List Char × List Char)
  | chars, 0 => some ([], chars)
  | [], _ + 1 => none
  | c :: rest, index + 1 =>
    if c.utf8Size ≤ index + 1 then
      (splitOff rest (index + 1 - c.utf8Size)).map (fun parts => (c :: parts.1, parts.2))
    else none

def chunkLoop (limit : Nat) : Nat → List Char → Option (List (List Char) × List Char)
  | 0, _ => none
  | rounds + 1, text =>
    if limit ≤ (encode text).length then
      match splitOff text (utf8PrefixBytes limit text) with
      | none => none
      | some (raw, remainder) =>
        (chunkLoop limit rounds remainder).map (fun later =>
          ((if raw.isEmpty then [] else [raw]) ++ later.1, later.2))
    else some ([], text)

section Loop

variable {limit : Nat}

theorem splitOff_take (chars : List Char) (count : Nat) :
    splitOff chars (byteLength (chars.take count)) =
      some (chars.take count, chars.drop count) := by
  induction chars generalizing count with
  | nil => simp [byteLength,splitOff]
  | cons c rest ih =>
    cases count with
    | zero => simp [byteLength,splitOff]
    | succ count =>
      have positive := c.utf8Size_pos
      rw [take_succ_cons,drop_succ_cons,byteLength_cons]
      obtain ⟨index,total⟩ := Nat.exists_eq_add_one.mpr
        (by omega : 0 < c.utf8Size + byteLength (rest.take count))
      have left : index + 1 - c.utf8Size = byteLength (rest.take count) := by omega
      rw [total,splitOff,if_pos (by omega),left,ih]
      rfl

theorem chunkLoop_drain (positive : 1 ≤ limit) {rounds fuel : Nat} {text : List Char}
    (enough : text.length < rounds) (fueled : text.length ≤ fuel) :
    chunkLoop limit rounds text = some (drain limit fuel text) := by
  induction rounds generalizing fuel text with
  | zero => omega
  | succ rounds ih =>
    rw [chunkLoop,length_encode]
    cases fuel with
    | zero =>
      rw [length_eq_zero_iff.mp (Nat.le_zero.mp fueled)]
      have small : ¬ limit ≤ byteLength [] := Nat.not_le.mpr positive
      rw [if_neg small]
      rfl
    | succ fuel =>
      by_cases large : limit ≤ byteLength text
      · have nonempty : text ≠ [] := by
          rintro rfl
          exact absurd positive (Nat.not_le.mpr (Nat.lt_succ_of_le large))
        have taken := @utf8Prefix_pos limit text nonempty
        have shorter : (text.drop (utf8Prefix limit text)).length < text.length := by
          have some := length_pos_of_ne_nil nonempty
          rw [length_drop]
          omega
        rw [if_pos large,utf8PrefixBytes_eq,splitOff_take,drain,if_pos large]
        simp only
        rw [@ih fuel _ (by omega) (by omega)]
        rfl
      · rw [if_neg large,drain,if_neg large]

theorem drain_chunk_small {fuel : Nat} {text chunk : List Char}
    (h : chunk ∈ (drain limit fuel text).1) : byteLength chunk ≤ limit ∨ chunk.length = 1 := by
  obtain ⟨taken,rest,rfl⟩ := mem_drain h
  have some := length_pos_of_ne_nil taken
  refine (take_utf8Prefix_small rest).imp id fun short => ?_
  omega

end Loop

inductive CoalescerCall where
  | push (key : StreamKey) (delta : String)
  | flush
  deriving DecidableEq

namespace TextCoalescer

def apply (coalescer : TextCoalescer) : CoalescerCall → List TextChunk × TextCoalescer
  | .push key delta => coalescer.push key delta
  | .flush => (coalescer.flush.1.toList, coalescer.flush.2)

def run : List CoalescerCall → TextCoalescer → List TextChunk × TextCoalescer
  | [], coalescer => ([], coalescer)
  | call :: rest, coalescer =>
    let later := run rest (coalescer.apply call).2
    ((coalescer.apply call).1 ++ later.1, later.2)

end TextCoalescer

def pushed (calls : List CoalescerCall) : List TextChunk :=
  calls.filterMap (fun call =>
    match call with
    | .push key delta => some ⟨key, delta⟩
    | .flush => none)

def concatText (chunks : List TextChunk) : List Char :=
  chunks.flatMap (fun chunk => chunk.text.toList)

structure Renders (deltas chunks : List TextChunk) : Prop where
  key : ∀ chunk ∈ chunks, ∀ delta ∈ deltas, chunk.key = delta.key
  text : concatText chunks = concatText deltas

def Coalesced (deltas chunks : List TextChunk) : Prop :=
  ∃ groups : List (List TextChunk), groups.flatten = chunks ∧
    List.Forall₂ Renders (runs key deltas) groups

section Grouping

variable {deltas chunks pieces : List TextChunk} {first second remainder : TextChunk}

theorem concatText_append (front back : List TextChunk) :
    concatText (front ++ back) = concatText front ++ concatText back :=
  flatMap_append

theorem concatText_cons (chunk : TextChunk) (rest : List TextChunk) :
    concatText (chunk :: rest) = chunk.text.toList ++ concatText rest := rfl

theorem Coalesced.split (h : Coalesced (remainder :: deltas) chunks)
    (own : first.key = remainder.key) (keyed : ∀ piece ∈ pieces, piece.key = remainder.key)
    (text : concatText pieces ++ remainder.text.toList = first.text.toList) :
    Coalesced (first :: deltas) (pieces ++ chunks) := by
  obtain ⟨groups,rfl,rendered⟩ := h
  obtain ⟨rest,others,shape⟩ := @runs_head _ _ _ key remainder.key deltas
  have inside : ∀ delta ∈ rest, delta.key = remainder.key := fun delta listed => by
    have run : remainder :: rest ∈ runs key (remainder :: deltas) := by
      rw [shape remainder rfl]
      exact mem_cons_self
    exact mem_runs_key run (mem_cons_of_mem _ listed) mem_cons_self
  rw [shape remainder rfl] at rendered
  cases rendered with
  | cons head tail =>
    next group groups =>
    refine ⟨(pieces ++ group) :: groups,by simp,?_⟩
    rw [shape first own]
    refine .cons ⟨fun chunk listed delta pushed => ?_,?_⟩ tail
    · have chunkKey : chunk.key = remainder.key := by
        rcases mem_append.mp listed with new | old
        · exact keyed chunk new
        · exact head.key chunk old remainder mem_cons_self
      have deltaKey : delta.key = remainder.key := by
        rcases mem_cons.mp pushed with rfl | later
        · exact own
        · exact inside delta later
      exact chunkKey.trans deltaKey.symm
    · rw [concatText_append,head.text,concatText_cons,concatText_cons,← append_assoc,
        text]

theorem Coalesced.merge (h : Coalesced (remainder :: deltas) chunks)
    (own : first.key = remainder.key) (same : second.key = remainder.key)
    (text : first.text.toList ++ second.text.toList = remainder.text.toList) :
    Coalesced (first :: second :: deltas) chunks := by
  obtain ⟨groups,rfl,rendered⟩ := h
  obtain ⟨rest,others,shape⟩ := @runs_head _ _ _ key remainder.key deltas
  have merged : runs key (first :: second :: deltas) =
      (first :: second :: rest) :: others :=
    runs_cons_same (shape second same) (own.trans same.symm)
  rw [shape remainder rfl] at rendered
  refine ⟨groups,rfl,?_⟩
  rw [merged]
  cases rendered with
  | cons head tail =>
    refine .cons ⟨fun chunk listed delta pushed => ?_,?_⟩ tail
    · rcases mem_cons.mp pushed with rfl | later
      · exact (head.key chunk listed remainder mem_cons_self).trans own.symm
      · rcases mem_cons.mp later with rfl | later
        · exact (head.key chunk listed remainder mem_cons_self).trans same.symm
        · exact head.key chunk listed delta (mem_cons_of_mem _ later)
    · rw [head.text,concatText_cons,concatText_cons,concatText_cons,← append_assoc,text]

theorem renders_piece (first : TextChunk) :
    Renders [first] (if first.text = "" then [] else [first]) := by
  by_cases empty : first.text = ""
  · rw [if_pos empty]
    refine ⟨nofun,?_⟩
    rw [concatText_cons,empty]
    rfl
  · rw [if_neg empty]
    refine ⟨fun chunk listed delta pushed => ?_,rfl⟩
    rw [mem_singleton.mp listed,mem_singleton.mp pushed]

theorem Coalesced.close (h : Coalesced deltas chunks) :
    Coalesced (first :: deltas) ((if first.text = "" then [] else [first]) ++ chunks) := by
  obtain ⟨groups,rfl,rendered⟩ := h
  have piece := renders_piece first
  generalize (if first.text = "" then [] else [first]) = closed at piece
  by_cases joins : ∃ next rest others, runs key deltas = (next :: rest) :: others ∧
      first.key = next.key
  · obtain ⟨next,rest,others,split,same⟩ := joins
    rw [split] at rendered
    cases rendered with
    | cons head tail =>
      next group groups =>
      refine ⟨(closed ++ group) :: groups,by simp,?_⟩
      rw [runs_cons_same split same]
      have inside : ∀ delta ∈ next :: rest, next.key = delta.key := fun delta listed => by
        have run : next :: rest ∈ runs key deltas := by
          rw [split]
          exact mem_cons_self
        exact mem_runs_key run mem_cons_self listed
      refine .cons ⟨fun chunk listed delta pushed => ?_,?_⟩ tail
      · have chunkKey : chunk.key = next.key := by
          rcases mem_append.mp listed with new | old
          · exact (piece.key chunk new first mem_cons_self).trans same
          · exact head.key chunk old next mem_cons_self
        rcases mem_cons.mp pushed with rfl | later
        · exact chunkKey.trans same.symm
        · exact chunkKey.trans (inside delta later)
      · rw [concatText_append,head.text,piece.text,← concatText_append]
        rfl
  · refine ⟨closed :: groups,rfl,?_⟩
    rw [runs_cons_new fun next rest others split same =>
      joins ⟨next,rest,others,split,same⟩]
    exact .cons piece rendered

end Grouping

namespace TextCoalescer

variable {key : StreamKey}

def pieces (key : StreamKey) (limit : Nat) (text : List Char) : List TextChunk :=
  (drain limit text.length text).1.map (fun chunk => ⟨key, String.ofList chunk⟩)

def remainder (key : StreamKey) (limit : Nat) (text : List Char) : TextChunk :=
  ⟨key, String.ofList (drain limit text.length text).2⟩

theorem pieces_key {limit : Nat} {text : List Char} {piece : TextChunk}
    (listed : piece ∈ pieces key limit text) : piece.key = key := by
  obtain ⟨chunk,_,rfl⟩ := mem_map.mp listed
  rfl

theorem pieces_text (key : StreamKey) (limit : Nat) (text : List Char) :
    concatText (pieces key limit text) ++ (remainder key limit text).text.toList = text := by
  have joined := drain_flatten limit text.length text
  have flat : concatText (pieces key limit text) = (drain limit text.length text).1.flatten := by
    rw [concatText,pieces,flatMap_map,← flatMap_id]
    refine flatMap_congr fun chunk _ => ?_
    exact String.toList_ofList
  rw [flat,remainder,String.toList_ofList,joined]

theorem push_fresh (delta : String) (limit : Nat) :
    push key delta ⟨none, limit⟩ =
      (pieces key limit delta.toList, ⟨some (remainder key limit delta.toList), limit⟩) := by
  have text : "" ++ delta = delta := String.empty_append
  simp [push,switch,pieces,remainder,text]

theorem push_same (held : TextChunk) (delta : String) (limit : Nat) :
    push held.key delta ⟨some held, limit⟩ =
      (pieces held.key limit (held.text ++ delta).toList,
        ⟨some (remainder held.key limit (held.text ++ delta).toList), limit⟩) := by
  simp [push,switch,pieces,remainder]

theorem push_other {held : TextChunk} (different : held.key ≠ key) (delta : String) (limit : Nat) :
    push key delta ⟨some held, limit⟩ =
      ((if held.text = "" then [] else [held]) ++ pieces key limit delta.toList,
        ⟨some (remainder key limit delta.toList), limit⟩) := by
  have text : "" ++ delta = delta := String.empty_append
  by_cases empty : held.text = ""
  · simp [push,switch,flush,pieces,remainder,text,different,empty]
  · simp [push,switch,flush,pieces,remainder,text,different,empty,Option.filter_some]

theorem flush_held (held : TextChunk) (limit : Nat) :
    apply ⟨some held, limit⟩ .flush = (if held.text = "" then [] else [held], ⟨none, limit⟩) := by
  by_cases empty : held.text = ""
  · simp [apply,flush,empty]
  · simp [apply,flush,empty]

theorem run_coalesced (calls : List CoalescerCall) (coalescer : TextCoalescer) :
    Coalesced (coalescer.pending.toList ++ pushed calls)
      ((run calls coalescer).1 ++ (run calls coalescer).2.pending.toList) := by
  induction calls generalizing coalescer with
  | nil =>
    obtain ⟨pending,limit⟩ := coalescer
    cases pending with
    | none => exact ⟨[],rfl,.nil⟩
    | some held => exact ⟨[[held]],rfl,.cons ⟨fun _ listed _ pushed => by
        rw [mem_singleton.mp listed,mem_singleton.mp pushed],rfl⟩ .nil⟩
  | cons call rest ih =>
    obtain ⟨pending,limit⟩ := coalescer
    have stepped : ∀ now next, apply ⟨pending,limit⟩ call = (now, next) →
        run (call :: rest) ⟨pending,limit⟩ =
          (now ++ (run rest next).1, (run rest next).2) := fun now next applied => by
      rw [run,applied]
    cases call with
    | flush =>
      cases pending with
      | none =>
        rw [stepped [] ⟨none,limit⟩ rfl]
        exact ih ⟨none,limit⟩
      | some held =>
        rw [stepped _ _ (flush_held held limit),append_assoc]
        exact (ih ⟨none,limit⟩).close
    | push key delta =>
      have absorbed : ∀ text : String,
          Coalesced (⟨key,text⟩ :: pushed rest) (pieces key limit text.toList ++
            ((run rest ⟨some (remainder key limit text.toList),limit⟩).1 ++
              (run rest ⟨some (remainder key limit text.toList),limit⟩).2.pending.toList)) :=
        fun text => (ih ⟨some (remainder key limit text.toList),limit⟩).split rfl
          (fun piece => pieces_key) (pieces_text key limit text.toList)
      cases pending with
      | none =>
        rw [stepped _ _ (push_fresh delta limit),append_assoc]
        exact absorbed delta
      | some held =>
        by_cases same : held.key = key
        · subst same
          rw [stepped _ _ (push_same held delta limit),append_assoc]
          exact (absorbed (held.text ++ delta)).merge rfl rfl String.toList_append.symm
        · rw [stepped _ _ (push_other same delta limit),append_assoc,
            append_assoc]
          exact (absorbed delta).close

structure Within (limit : Nat) (coalescer : TextCoalescer) : Prop where
  configured : coalescer.limit = limit
  pending : ∀ held ∈ coalescer.pending, byteLength held.text.toList < limit

structure Sized (limit : Nat) (chunk : TextChunk) : Prop where
  nonempty : chunk.text ≠ ""
  small : byteLength chunk.text.toList ≤ limit ∨ chunk.text.toList.length = 1

variable {limit : Nat}

theorem pieces_sized {text : List Char} {piece : TextChunk}
    (listed : piece ∈ pieces key limit text) : Sized limit piece := by
  obtain ⟨chunk,drained,rfl⟩ := mem_map.mp listed
  refine ⟨fun empty => (mem_drain drained).1 ?_,?_⟩
  · have chars : (String.ofList chunk).toList = [] := congrArg String.toList empty
    rwa [String.toList_ofList] at chars
  · rw [String.toList_ofList]
    exact drain_chunk_small drained

theorem remainder_within (positive : 1 ≤ limit) (key : StreamKey) (text : List Char) :
    Within limit ⟨some (remainder key limit text), limit⟩ := by
  refine ⟨rfl,?_⟩
  rintro held ⟨⟩
  rw [remainder,String.toList_ofList]
  exact drain_small positive (Nat.le_refl _)

theorem closed_sized {held chunk : TextChunk} (small : byteLength held.text.toList < limit)
    (listed : chunk ∈ if held.text = "" then [] else [held]) : Sized limit chunk := by
  split at listed
  · cases listed
  · next nonempty =>
    cases mem_singleton.mp listed
    exact ⟨nonempty,.inl small.le⟩

variable {coalescer : TextCoalescer}

theorem apply_sized (positive : 1 ≤ limit) (within : Within limit coalescer)
    (call : CoalescerCall) :
    (∀ chunk ∈ (coalescer.apply call).1, Sized limit chunk) ∧
      Within limit (coalescer.apply call).2 := by
  obtain ⟨pending,bound⟩ := coalescer
  obtain ⟨rfl,pendingSmall⟩ := within
  dsimp only at positive pendingSmall ⊢
  cases call with
  | flush =>
    cases pending with
    | none => exact ⟨nofun,rfl,nofun⟩
    | some held =>
      rw [flush_held]
      exact ⟨fun chunk => closed_sized (pendingSmall held rfl),rfl,nofun⟩
  | push key delta =>
    rw [apply]
    cases pending with
    | none =>
      rw [push_fresh]
      exact ⟨fun chunk => pieces_sized,remainder_within positive key delta.toList⟩
    | some held =>
      by_cases same : held.key = key
      · subst same
        rw [push_same]
        exact ⟨fun chunk => pieces_sized,remainder_within positive held.key _⟩
      · rw [push_other same]
        refine ⟨fun chunk listed => ?_,remainder_within positive key delta.toList⟩
        rcases mem_append.mp listed with closed | piece
        · exact closed_sized (pendingSmall held rfl) closed
        · exact pieces_sized piece

theorem run_sized (positive : 1 ≤ limit) (calls : List CoalescerCall)
    (within : Within limit coalescer) :
    ∀ chunk ∈ (run calls coalescer).1, Sized limit chunk := by
  induction calls generalizing coalescer with
  | nil => exact nofun
  | cons call rest ih =>
    obtain ⟨now,next⟩ := apply_sized positive within call
    intro chunk listed
    rcases mem_append.mp listed with own | later
    · exact now chunk own
    · exact ih next chunk later

theorem coalescing_preserves (positive : 1 ≤ limit) (calls : List CoalescerCall) :
    Coalesced (pushed calls)
        ((run calls ⟨none, limit⟩).1 ++ (run calls ⟨none, limit⟩).2.pending.toList) ∧
      (∀ chunk ∈ (run calls ⟨none, limit⟩).1, Sized limit chunk) ∧
      ∀ text : List Char,
        Utf8.isCharBoundary (Utf8.encode text) (utf8PrefixBytes limit text) = true ∧
          ∀ rounds, text.length < rounds →
            chunkLoop limit rounds text = some (drain limit text.length text) := by
  refine ⟨run_coalesced calls ⟨none,limit⟩,run_sized positive calls ⟨rfl,nofun⟩,
    fun text => ⟨?_,fun rounds enough => chunkLoop_drain positive enough (Nat.le_refl _)⟩⟩
  refine Utf8.isCharBoundary_iff.mpr ⟨utf8Prefix limit text,?_⟩
  rw [utf8PrefixBytes_eq,length_encode]

def Sample.spoken : List CoalescerCall :=
  [.push ⟨"text", "a", none⟩ "hé", .push ⟨"text", "a", none⟩ "€!",
    .push ⟨"text", "b", none⟩ "", .flush, .push ⟨"text", "a", none⟩ "x"]

theorem coalescing_preserves_spoken :
    (run Sample.spoken ⟨none, 2⟩).1 = [⟨⟨"text", "a", none⟩, "h"⟩, ⟨⟨"text", "a", none⟩, "é"⟩,
      ⟨⟨"text", "a", none⟩, "€"⟩, ⟨⟨"text", "a", none⟩, "!"⟩] ∧
    Coalesced (pushed Sample.spoken)
      ((run Sample.spoken ⟨none, 2⟩).1 ++ (run Sample.spoken ⟨none, 2⟩).2.pending.toList) :=
  ⟨by decide +kernel,(coalescing_preserves (by decide) Sample.spoken).1⟩

end TextCoalescer

end Runtime
