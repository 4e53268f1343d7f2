import Factory.Runtime.EventText

namespace Runtime

open Text List

def splitLines (value : String) : List String :=
  (((collapseNewlines value.toList).map fun c => if c = '\r' then '\n' else c).splitOn '\n').map
    String.ofList

def paragraphs : Option Bool → List String → List (Option Bool × String)
  | _, [] => []
  | gap, line :: rest =>
    if isBlank line then paragraphs (gap.map fun _ => true) rest
    else (gap, trimEnd line) :: paragraphs (some false) rest

structure Compacted (source result : List String) : Prop where
  trimmed : ∀ line ∈ result, trimEnd line = line
  apart : result.IsChain (fun line next => isBlank line = true → isBlank next = false)
  first : ∀ line ∈ result.head?, isBlank line = false
  last : ∀ line ∈ result.getLast?, isBlank line = false
  kept : result.filter (!isBlank ·) = (source.filter (!isBlank ·)).map trimEnd
  gaps : paragraphs none result = paragraphs none source

def squeeze : Option Bool → List String → List String
  | _, [] => []
  | gap, line :: rest =>
    if isBlank line then squeeze (gap.map fun _ => true) rest
    else (if gap = some true then [""] else []) ++ trimEnd line :: squeeze (some false) rest

def unlines (source : List String) : List Char := ['\n'].intercalate (source.map String.toList)

variable {line first out : String} {source : List String} {chars : List Char} {gap : Option Bool}
  {blank : Bool} {c : Char}

theorem collapseNewlines_chars {chars : List Char} {c : Char}
    (h : c ∈ collapseNewlines chars) : c ∈ chars := by
  induction chars using collapseNewlines.induct with
  | case1 rest ih =>
    simp only [collapseNewlines] at h
    rcases mem_cons.mp h with rfl | later
    · exact mem_cons_of_mem _ mem_cons_self
    · exact mem_cons_of_mem _ (mem_cons_of_mem _ (ih later))
  | case2 first rest different ih =>
    rw [collapseNewlines] at h
    · rcases mem_cons.mp h with rfl | later
      · exact mem_cons_self
      · exact mem_cons_of_mem _ (ih later)
    · exact different
  | case3 => cases h

theorem splitLines_chars {value : String} (listed : line ∈ splitLines value)
    (inside : c ∈ line.toList) : c ∈ value.toList ∧ c ≠ '\n' ∧ c ≠ '\r' := by
  obtain ⟨piece,found,rfl⟩ := mem_map.mp listed
  rw [String.toList_ofList] at inside
  obtain ⟨known,apart⟩ := (mem_splitOnPPrepend found inside).resolve_left not_mem_nil
  obtain ⟨original,collapsed,rfl⟩ := mem_map.mp known
  split at apart
  · exact absurd rfl apart
  · next other =>
    rw [if_neg other]
    exact ⟨collapseNewlines_chars collapsed,apart,other⟩

theorem linesFrom_split (line chars : List Char) :
    ∃ tail, (tail = [] ∨ tail = [[]]) ∧
      chars.splitOnPPrepend (· == '\n') line = linesFrom line chars ++ tail := by
  induction chars generalizing line with
  | nil =>
    cases line with
    | nil => exact ⟨[[]],.inr rfl,rfl⟩
    | cons c line => exact ⟨[],.inl rfl,by simp [linesFrom]⟩
  | cons c rest ih =>
    rw [splitOnPPrepend_cons_eq_if,linesFrom]
    by_cases ends : c = '\n'
    · obtain ⟨tail,short,same⟩ := ih []
      exact ⟨tail,short,by simpa [ends] using same⟩
    · obtain ⟨tail,short,same⟩ := ih (c :: line)
      exact ⟨tail,short,by simpa [ends] using same⟩

theorem foldl_lines (value : String) (state : String × Bool) :
    ((lines value).foldl compactLine state).1 = ((splitLines value).foldl compactLine state).1 := by
  obtain ⟨tail,short,same⟩ := linesFrom_split []
    ((collapseNewlines value.toList).map fun c => if c = '\r' then '\n' else c)
  have parts : splitLines value = lines value ++ tail.map String.ofList := by
    rw [splitLines,lines,← map_append,← same]
    rfl
  rw [parts,foldl_append]
  rcases short with rfl | rfl
  · rfl
  · rfl

theorem unlines_append (out line : String) (rest : List String) :
    unlines ((out ++ line) :: rest) = out.toList ++ unlines (line :: rest) := by
  cases rest with
  | nil => simp [unlines]
  | cons next rest => simp [unlines,intercalate_cons_cons]

theorem foldl_compactLine (started : out ≠ "") (source : List String) (blank : Bool) :
    (source.foldl compactLine (out, blank)).1.toList =
      unlines (out :: squeeze (some blank) source) := by
  induction source generalizing out blank with
  | nil => simp [squeeze,unlines]
  | cons line rest ih =>
    rw [foldl_cons,compactLine,squeeze]
    by_cases empty : isBlank line = true
    · rw [if_pos (trimEnd_eq_empty.mpr empty),if_pos empty,ih started]
      simp [started]
    · have visible := mt trimEnd_eq_empty.mp empty
      rw [if_neg visible,if_neg empty,ih (by simp [visible]),String.append_assoc,unlines_append,
        unlines_append]
      cases blank with
      | true | false => simp [started,unlines,intercalate_cons_cons]

theorem foldl_compactLine_empty (source : List String) (blank : Bool) :
    (source.foldl compactLine ("", blank)).1.toList = unlines (squeeze none source) := by
  induction source generalizing blank with
  | nil => rfl
  | cons line rest ih =>
    rw [foldl_cons,compactLine,squeeze]
    by_cases empty : isBlank line = true
    · rw [if_pos (trimEnd_eq_empty.mpr empty),if_pos empty,ih]
      rfl
    · have visible := mt trimEnd_eq_empty.mp empty
      rw [if_neg visible,if_neg empty]
      simpa using foldl_compactLine visible rest false

theorem collapseNewlines_self (h : '\r' ∉ chars) : collapseNewlines chars = chars := by
  induction chars with
  | nil => rfl
  | cons c rest ih =>
    rw [mem_cons,not_or] at h
    rw [collapseNewlines,ih h.2]
    exact fun _ same => absurd same.symm h.1

theorem mem_unlines (h : c ∈ unlines source) : c = '\n' ∨ ∃ line ∈ source, c ∈ line.toList := by
  induction source with
  | nil => cases h
  | cons line rest ih =>
    cases rest with
    | nil => exact .inr ⟨line,mem_cons_self,by simpa [unlines] using h⟩
    | cons next rest =>
      rw [unlines,map_cons,map_cons,intercalate_cons_cons,append_assoc] at h
      rcases mem_append.mp h with own | h
      · exact .inr ⟨line,mem_cons_self,own⟩
      · rcases mem_cons.mp h with rfl | h
        · exact .inl rfl
        · rcases ih h with found | ⟨other,listed,inside⟩
          · exact .inl found
          · exact .inr ⟨other,mem_cons_of_mem _ listed,inside⟩

theorem splitLines_unlines (nonempty : source ≠ [])
    (whole : ∀ line ∈ source, ∀ c ∈ line.toList, c ≠ '\n' ∧ c ≠ '\r') :
    splitLines (String.ofList (unlines source)) = source := by
  have uncollapsed : '\r' ∉ unlines source := by
    intro listed
    rcases mem_unlines listed with bad | ⟨line,known,inside⟩
    · cases bad
    · exact (whole line known _ inside).2 rfl
  have same : (unlines source).map (fun c => if c = '\r' then '\n' else c) = unlines source := by
    refine (map_congr_left fun c listed => if_neg ?_).trans (map_id _)
    exact fun bad => uncollapsed (bad ▸ listed)
  rw [splitLines,String.toList_ofList,collapseNewlines_self uncollapsed,same,unlines,
    splitOn_intercalate]
  · simp
  · intro piece listed inside
    obtain ⟨line,known,rfl⟩ := mem_map.mp listed
    exact (whole line known _ inside).1 rfl
  · simpa using nonempty

theorem squeeze_eq (gap : Option Bool) (source : List String) :
    squeeze gap source = (paragraphs gap source).flatMap fun entry =>
      (if entry.1 = some true then [""] else []) ++ [entry.2] := by
  induction source generalizing gap with
  | nil => rfl
  | cons line rest ih =>
    rw [squeeze,paragraphs]
    split
    · exact ih _
    · rw [flatMap_cons,← ih,append_assoc]
      rfl

theorem mem_squeeze (h : line ∈ squeeze gap source) :
    line = "" ∨ ∃ original ∈ source, line = trimEnd original := by
  induction source generalizing gap with
  | nil => cases h
  | cons next rest ih =>
    have later {gap : Option Bool} (h : line ∈ squeeze gap rest) :
        line = "" ∨ ∃ original ∈ next :: rest, line = trimEnd original := by
      rcases ih h with empty | ⟨original,listed,same⟩
      · exact .inl empty
      · exact .inr ⟨original,mem_cons_of_mem next listed,same⟩
    rw [squeeze] at h
    split at h
    · exact later h
    · rcases mem_append.mp h with separator | h
      · split at separator
        · exact .inl (mem_singleton.mp separator)
        · cases separator
      · rcases mem_cons.mp h with rfl | h
        · exact .inr ⟨next,mem_cons_self,rfl⟩
        · exact later h

theorem paragraphs_squeeze (gap : Option Bool) (source : List String) :
    paragraphs (gap.map fun _ => false) (squeeze gap source) = paragraphs gap source := by
  have empty : isBlank "" = true := rfl
  induction source generalizing gap with
  | nil => rfl
  | cons line rest ih =>
    rw [squeeze,paragraphs]
    split
    · rw [← ih,Option.map_map]
      rfl
    · next visible =>
      have later := ih (some false)
      rcases gap with _ | _ | _
      · simpa [paragraphs,isBlank_trimEnd,visible,trimEnd_trimEnd] using later
      · simpa [paragraphs,isBlank_trimEnd,visible,trimEnd_trimEnd] using later
      · simpa [paragraphs,empty,isBlank_trimEnd,visible,trimEnd_trimEnd] using later

theorem paragraphs_kept (gap : Option Bool) (source : List String) :
    (paragraphs gap source).map Prod.snd = (source.filter (!isBlank ·)).map trimEnd := by
  induction source generalizing gap with
  | nil => rfl
  | cons line rest ih =>
    rw [paragraphs,filter_cons]
    by_cases empty : isBlank line = true
    · simp [empty,ih]
    · simp [empty,ih]

theorem squeeze_apart (visible : isBlank first = false) (blank : Bool) (source : List String) :
    (first :: squeeze (some blank) source).IsChain
        (fun line next => isBlank line = true → isBlank next = false) ∧
      ∀ line ∈ (first :: squeeze (some blank) source).getLast?, isBlank line = false := by
  induction source generalizing first blank with
  | nil => simp [squeeze,visible]
  | cons line rest ih =>
    rw [squeeze]
    split
    · exact ih visible true
    · next seen =>
      rw [Bool.not_eq_true,← isBlank_trimEnd] at seen
      have later := ih seen false
      cases blank with
      | true | false => simpa [visible,seen] using later

theorem squeeze_none (source : List String) :
    (∀ line ∈ source, isBlank line = true) ∧ squeeze none source = [] ∨
      (∃ line ∈ source, isBlank line = false) ∧ ∃ first rest, isBlank first = false ∧
        squeeze none source = first :: squeeze (some false) rest := by
  induction source with
  | nil => exact .inl ⟨by simp,rfl⟩
  | cons line rest ih =>
    rw [squeeze]
    by_cases empty : isBlank line = true
    · rw [if_pos empty]
      rcases ih with ⟨blank,none⟩ | ⟨⟨later,listed,visible⟩,shape⟩
      · exact .inl ⟨forall_mem_cons.mpr ⟨empty,blank⟩,none⟩
      · exact .inr ⟨⟨later,mem_cons_of_mem _ listed,visible⟩,shape⟩
    · rw [if_neg empty]
      rw [Bool.not_eq_true] at empty
      exact .inr ⟨⟨line,mem_cons_self,empty⟩,_,rest,isBlank_trimEnd.trans empty,rfl⟩

theorem squeeze_compacted (source : List String) : Compacted source (squeeze none source) := by
  have trimmed : ∀ line ∈ squeeze none source, trimEnd line = line := by
    intro line listed
    rcases mem_squeeze listed with rfl | ⟨original,-,rfl⟩
    · rfl
    · exact trimEnd_trimEnd original
  have gaps := paragraphs_squeeze none source
  have kept : (squeeze none source).filter (!isBlank ·) =
      (source.filter (!isBlank ·)).map trimEnd := by
    rw [← paragraphs_kept none source,← gaps,Option.map_none,paragraphs_kept]
    refine (map_id _).symm.trans (map_congr_left fun line listed => ?_)
    exact (trimmed line (mem_filter.mp listed).1).symm
  rcases squeeze_none source with ⟨-,empty⟩ | ⟨-,first,rest,visible,shape⟩
  · refine ⟨trimmed,?_,?_,?_,kept,gaps⟩
    · rw [empty]
      exact .nil
    · simp [empty]
    · simp [empty]
  · obtain ⟨apart,last⟩ := squeeze_apart visible false rest
    rw [← shape] at apart last
    refine ⟨trimmed,apart,?_,last,kept,gaps⟩
    rw [shape]
    rintro line ⟨⟩
    exact visible

theorem compact_eq (value : String) :
    compact value = if squeeze none (splitLines value) = [] then none
      else some (String.ofList (unlines (squeeze none (splitLines value)))) := by
  have folded := foldl_compactLine_empty (splitLines value) false
  rw [← foldl_lines] at folded
  rw [compact,← folded,String.ofList_toList]
  refine ite_congr ?_ (fun _ => rfl) fun _ => rfl
  rw [← String.toList_eq_nil_iff,folded]
  rcases squeeze_none (splitLines value) with ⟨-,empty⟩ | ⟨-,first,rest,visible,shape⟩
  · simp [empty,unlines]
  · have nonempty : first.toList ≠ [] := by
      intro none
      rw [isBlank,none] at visible
      cases visible
    have split := unlines_append first "" (squeeze (some false) rest)
    rw [String.append_empty] at split
    simp [shape,split,nonempty]

theorem compact_none (value : String) :
    compact value = none ↔ ∀ line ∈ splitLines value, isBlank line = true := by
  rw [compact_eq]
  rcases squeeze_none (splitLines value) with ⟨blank,empty⟩ | ⟨⟨line,listed,visible⟩,shape⟩
  · simpa [empty] using blank
  · obtain ⟨first,rest,-,shape⟩ := shape
    simp only [shape,reduceCtorEq,if_false,false_iff]
    intro blank
    rw [blank line listed] at visible
    cases visible

theorem compact_blank {value : String} (blank : isBlank value = true) : compact value = none := by
  refine (compact_none value).mpr fun line listed => ?_
  exact all_eq_true.mpr fun c inside =>
    all_eq_true.mp blank c (splitLines_chars listed inside).1

theorem compact_normal (value : String) :
    (compact value = none ↔ ∀ line ∈ splitLines value, isBlank line = true) ∧
      ∀ result, compact value = some result →
        compact result = some result ∧ Compacted (splitLines value) (splitLines result) := by
  refine ⟨compact_none value,fun result computed => ?_⟩
  rw [compact_eq] at computed
  split at computed
  · cases computed
  · next nonempty =>
    have whole : ∀ line ∈ squeeze none (splitLines value), ∀ c ∈ line.toList,
        c ≠ '\n' ∧ c ≠ '\r' := by
      intro line listed c inside
      rcases mem_squeeze listed with rfl | ⟨original,known,rfl⟩
      · cases inside
      · rw [trimEnd,String.toList_ofList,mem_reverse] at inside
        have within := mem_reverse.mp ((dropWhile_sublist _).subset inside)
        exact (splitLines_chars known within).2
    have parts := splitLines_unlines nonempty whole
    obtain rfl := Option.some.inj computed
    have compacted := squeeze_compacted (splitLines value)
    rw [compact_eq,parts,squeeze_eq none (squeeze none _),compacted.gaps,← squeeze_eq,
      if_neg nonempty]
    exact ⟨rfl,compacted⟩

end Runtime
