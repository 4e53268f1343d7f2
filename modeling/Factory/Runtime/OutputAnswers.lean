import Factory.Runtime.WriterMessages

namespace Runtime

open Coordinator Json Table List TurnEvent MessageInput Option

def TurnEvent.phase : TurnEvent → Option String
  | .messageStarted _ _ phase | .messageCompleted _ _ phase => phase
  | _ => none

def itemName (event : TurnEvent) : String := event.itemId.getD ""

def hear (message : AgentMessage) (stamp : Nat × TurnEvent) : AgentMessage :=
  match stamp.2 with
  | .messageDelta _ text => { message with streamed := message.streamed ++ text }
  | .messageCompleted _ text phase =>
    ⟨message.streamed, text.getD message.complete, phase.or message.phase, some stamp.1⟩
  | _ => message

def heard (item : String) (stamped : List (Nat × TurnEvent)) : AgentMessage :=
  (stamped.filter (fun stamp => itemName stamp.2 = item)).foldl hear .default

def RowOf (turn : TurnRef) (row : JobEventRow) (stamp : Nat × TurnEvent) : Prop :=
  row.sequence = stamp.1 ∧ row.kind = stamp.2.kind ∧
    row.payload = correlate stamp.2.fields turn ∧ stamp.2.spoken = true

section Reading

variable {turn : TurnRef} {row : JobEventRow} {stamp : Nat × TurnEvent}
  {rows : List JobEventRow} {stamped : List (Nat × TurnEvent)} {item : String}

theorem text_phase {event : TurnEvent} (spoken : event.spoken = true) :
    (Value.object event.fields).text "phase" = event.phase := by
  cases event with
  | messageDelta own text =>
    simp [fields,phase,Value.text,Value.get]
  | messageCompleted own text phase =>
    cases text <;> cases phase <;>
      simp [fields,phase,Value.text,Value.get,Value.asStr,Serde.optionalValue]
  | messageStarted | activity => cases spoken

theorem RowOf.named (h : RowOf turn row stamp) :
    row.payload.text "itemId" = some (itemName stamp.2) := by
  obtain ⟨-,-,payload,spoken⟩ := h
  have named : stamp.2.itemId = some (itemName stamp.2) := by
    cases event : stamp.2 with
    | messageDelta | messageCompleted => rfl
    | messageStarted | activity =>
      rw [event] at spoken
      cases spoken
  rw [payload,Journal.correlate_text (by decide) (by decide),(Journal.TurnEvent.texts named).1]

theorem RowOf.observe (h : RowOf turn row stamp) (message : AgentMessage) :
    message.observe row = hear message stamp := by
  obtain ⟨sequence,kind,payload,spoken⟩ := h
  obtain ⟨number,event⟩ := stamp
  have phase : row.payload.text "phase" = event.phase := by
    rw [payload,Journal.correlate_text (by decide) (by decide),text_phase spoken]
  cases event with
  | messageDelta own text =>
    have read : row.payload.text "text" = some text := by
      rw [payload,Journal.correlate_text (by decide) (by decide),
        (@Journal.TurnEvent.texts (.messageDelta own text) own rfl).2]
      rfl
    simp [AgentMessage.observe,AgentMessage.read,hear,phase,read,kind,TurnEvent.kind,
      TurnEvent.phase]
  | messageCompleted own text stage =>
    have read : row.payload.text "text" = text := by
      rw [payload,Journal.correlate_text (by decide) (by decide),
        (@Journal.TurnEvent.texts (.messageCompleted own text stage) own rfl).2]
      rfl
    cases text <;>
      simp [AgentMessage.observe,AgentMessage.read,hear,phase,read,kind,TurnEvent.kind,
        TurnEvent.phase,sequence]
  | messageStarted | activity => cases spoken

theorem foldl_hear (stamps : List (Nat × TurnEvent)) (found : Option AgentMessage) :
    (stamps.foldl (fun value stamp => some (hear (value.getD .default) stamp)) found).getD
        .default = stamps.foldl hear (found.getD .default) := by
  induction stamps generalizing found with
  | nil => rfl
  | cons stamp rest ih => exact ih _

variable {allowCommentary : Bool} {candidate : Nat × String} {text : Option String}

def closing (item : String) (stamp : Nat × TurnEvent) :
    Option (Nat × Option String × Option String) :=
  match stamp.2 with
  | .messageCompleted own text phase => if own = item then some (stamp.1, text, phase) else none
  | _ => none

theorem heard_concat (item : String) (stamped : List (Nat × TurnEvent))
    (stamp : Nat × TurnEvent) :
    heard item (stamped ++ [stamp]) =
      if itemName stamp.2 = item then hear (heard item stamped) stamp else heard item stamped := by
  unfold heard
  rw [filter_append]
  split
  · next own => simp [own]
  · next other => simp [other]

theorem heard_eq (spoken : ∀ stamp ∈ stamped, stamp.2.spoken = true) (item : String) :
    heard item stamped =
      ⟨String.ofList (streamedChars item (stamped.map Prod.snd)),
        (stamped.filterMap (closing item)).foldl (fun text close => close.2.1.getD text) "",
        (stamped.filterMap (closing item)).foldl (fun phase close => close.2.2.or phase) none,
        ((stamped.filterMap (closing item)).getLast?).map Prod.fst⟩ := by
  induction stamped using reverseRecOn with
  | nil => rfl
  | append_singleton stamped stamp ih =>
    have before := ih fun other member => spoken other (mem_append_left _ member)
    have own := spoken stamp (mem_append_right _ mem_cons_self)
    obtain ⟨number,event⟩ := stamp
    rw [heard_concat,before]
    cases event with
    | messageDelta name text =>
      by_cases same : name = item
      · simp [itemName,itemId,same,hear,closing,streamedChars,TurnEvent.chars,
          filterMap_cons]
      · simp [itemName,itemId,same,closing,streamedChars,TurnEvent.chars,
          filterMap_cons]
    | messageCompleted name text phase =>
      by_cases same : name = item
      · simp [itemName,itemId,same,hear,closing,streamedChars,TurnEvent.chars]
      · simp [itemName,itemId,same,closing,streamedChars,TurnEvent.chars]
    | messageStarted | activity => cases own

def SingleClose (stamped : List (Nat × TurnEvent)) : Prop :=
  stamped.Pairwise fun a b =>
    a.2.closes = true → b.2.closes = true → a.2.itemId ≠ b.2.itemId

def outputText (log : List TurnEvent) (item : String) (text : Option String) : String :=
  if text.getD "" = "" then String.ofList (streamedChars item log) else text.getD ""

def finishing (allowCommentary : Bool) (log : List TurnEvent) (stamp : Nat × TurnEvent) :
    Option (Nat × String) :=
  match stamp.2 with
  | .messageCompleted item text phase =>
    if (allowCommentary = true ∨ phase ≠ some "commentary") ∧
        Text.isBlank (outputText log item text) = false then
      some (stamp.1, outputText log item text)
    else none
  | _ => none

theorem closing_some {close : Nat × Option String × Option String}
    (h : closing item stamp = some close) :
    stamp.2 = .messageCompleted item close.2.1 close.2.2 ∧ stamp.1 = close.1 := by
  unfold closing at h
  split at h
  · next event =>
    split at h
    · next own =>
      cases h
      exact ⟨own ▸ event,rfl⟩
    · cases h
  · cases h

theorem closing_single (single : SingleClose stamped) {number : Nat} {phase : Option String}
    (member : (number, messageCompleted item text phase) ∈ stamped) :
    stamped.filterMap (closing item) = [(number, text, phase)] := by
  obtain ⟨before,after,rfl⟩ := append_of_mem member
  obtain ⟨-,later,earlier⟩ := pairwise_append.mp single
  have own : closing item (number, .messageCompleted item text phase) =
      some (number, text, phase) := if_pos rfl
  have front : before.filterMap (closing item) = [] := by
    refine filterMap_eq_nil_iff.mpr fun stamp inside => ?_
    cases found : closing item stamp with
    | none => rfl
    | some close =>
      obtain ⟨event,-⟩ := closing_some found
      have apart := earlier stamp inside _ mem_cons_self
      rw [event] at apart
      exact absurd rfl (apart rfl rfl)
  have back : after.filterMap (closing item) = [] := by
    refine filterMap_eq_nil_iff.mpr fun stamp inside => ?_
    cases found : closing item stamp with
    | none => rfl
    | some close =>
      obtain ⟨event,-⟩ := closing_some found
      have apart := (pairwise_cons.mp later).1 stamp inside
      rw [event] at apart
      exact absurd rfl (apart rfl rfl)
  rw [filterMap_append,filterMap_cons_some own,front,back]
  rfl

theorem heard_closed (spoken : ∀ stamp ∈ stamped, stamp.2.spoken = true)
    (single : SingleClose stamped) {number : Nat} {phase : Option String}
    (member : (number, messageCompleted item text phase) ∈ stamped)
    (allowCommentary : Bool) :
    (heard item stamped).candidate allowCommentary =
      finishing allowCommentary (stamped.map Prod.snd)
        (number, .messageCompleted item text phase) := by
  rw [heard_eq spoken,closing_single single member]
  simp only [foldl_cons,foldl_nil,Option.or_none,getLast?_singleton,
    Option.map_some]
  rfl

theorem candidate_iff (spoken : ∀ stamp ∈ stamped, stamp.2.spoken = true)
    (single : SingleClose stamped) :
    (∃ item, (heard item stamped).candidate allowCommentary = some candidate) ↔
      candidate ∈ stamped.filterMap (finishing allowCommentary (stamped.map Prod.snd)) := by
  rw [mem_filterMap]
  constructor
  · rintro ⟨item,found⟩
    cases closes : stamped.filterMap (closing item) with
    | nil =>
      rw [heard_eq spoken,closes] at found
      cases found
    | cons close rest =>
      have first : close ∈ stamped.filterMap (closing item) := by
        rw [closes]
        exact mem_cons_self
      obtain ⟨⟨number,event⟩,member,closed⟩ := mem_filterMap.mp first
      obtain ⟨rfl,-⟩ := closing_some closed
      rw [heard_closed spoken single member] at found
      exact ⟨_,member,found⟩
  · rintro ⟨⟨number,event⟩,member,found⟩
    cases event with
    | messageCompleted item text phase =>
      refine ⟨item,?_⟩
      rw [heard_closed spoken single member]
      exact found
    | messageDelta | messageStarted | activity => cases found

section Rows

variable (h : List.Forall₂ (RowOf turn) rows stamped)

include h

theorem rows_spoken :
    ∀ stamp ∈ stamped, stamp.2.spoken = true := by
  induction h with
  | nil => exact fun _ member => absurd member not_mem_nil
  | cons own rest ih => exact forall_mem_cons.mpr ⟨own.2.2.2,ih⟩

theorem collect_eq (entries : List (String × AgentMessage)) :
    Assoc.gather (fun row => (row.payload.text "itemId").getD "")
        (fun row message => (message.getD .default).observe row) rows entries =
      Assoc.gather (fun stamp => itemName stamp.2)
        (fun stamp message => hear (message.getD .default) stamp) stamped entries := by
  induction h generalizing entries with
  | nil => rfl
  | @cons row stamp rows stamped own rest ih =>
    have same : (fun message : Option AgentMessage => (message.getD .default).observe row) =
        fun message => hear (message.getD .default) stamp :=
      funext fun message => own.observe _
    have named : (row.payload.text "itemId").getD "" = itemName stamp.2 := by
      rw [own.named]
      rfl
    simp only [Assoc.gather,foldl_cons,named,same]
    exact ih _

theorem collected_get (item : String) :
    (Assoc.get item (collectMessages rows)).getD .default = heard item stamped := by
  rw [collectMessages,collect_eq h,Assoc.get_gather,foldl_hear]
  rfl

theorem mem_candidates :
    candidate ∈ (collectMessages rows).filterMap
        (fun entry => entry.2.candidate allowCommentary) ↔
      ∃ item, (heard item stamped).candidate allowCommentary = some candidate := by
  rw [mem_filterMap]
  constructor
  · rintro ⟨⟨item,message⟩,member,found⟩
    refine ⟨item,?_⟩
    rw [← collected_get h,(Assoc.mem_iff_get (collected_nodup rows)).mp member]
    exact found
  · rintro ⟨item,found⟩
    rw [← collected_get h] at found
    cases stored : Assoc.get item (collectMessages rows) with
    | none =>
      rw [stored] at found
      cases found
    | some message =>
      rw [stored] at found
      exact ⟨(item, message),(Assoc.mem_iff_get (collected_nodup rows)).mpr stored,found⟩

theorem choose_eq (ordered : stamped.Pairwise fun a b => a.1 < b.1) (single : SingleClose stamped)
    (allowCommentary : Bool) :
    choose allowCommentary (collectMessages rows) =
      ((stamped.filterMap (finishing allowCommentary (stamped.map Prod.snd))).map
        Prod.snd).getLast? := by
  have spoken := rows_spoken h
  have sorted : (stamped.filterMap
      (finishing allowCommentary (stamped.map Prod.snd))).Pairwise fun a b => a.1 < b.1 := by
    have numbered : ∀ (stamp : Nat × TurnEvent) (found : Nat × String),
        finishing allowCommentary (stamped.map Prod.snd) stamp = some found →
          found.1 = stamp.1 := by
      intro stamp found finished
      unfold finishing at finished
      split at finished
      · split at finished
        · cases finished
          rfl
        · cases finished
      · cases finished
    refine ordered.filterMap _ fun a b less x finished y later => ?_
    rw [numbered a x finished,numbered b y later]
    exact less
  rw [Coordinator.choose,maxByKey_eq_getLast sorted fun candidate => (mem_candidates h).trans
    (candidate_iff spoken single),getLast?_map]

end Rows

end Reading

def MessageInput.deltaOf (item : String) : MessageInput → Option String
  | .delta own text => if own = item then some text else none
  | .completed _ _ _ => none

def deltasOf (item : String) (inputs : List MessageInput) : List String :=
  inputs.filterMap (deltaOf item)

def resultingText (inputs : List MessageInput) (item text : String) : String :=
  if (deltasOf item inputs).any (· ≠ "") then String.join (deltasOf item inputs)
  else (compact text).getD ""

def MessageInput.answer (keep : Option MessagePhase → Bool) (inputs : List MessageInput) :
    MessageInput → Option String
  | .delta _ _ => none
  | .completed item phase text =>
    if keep phase = true ∧ Text.isBlank (resultingText inputs item text) = false then
      some (resultingText inputs item text)
    else none

def answers (keep : Option MessagePhase → Bool) (inputs : List MessageInput) : List String :=
  inputs.filterMap (answer keep inputs)

def isCommentary (phase : Option MessagePhase) : Bool := phase = some .commentary

def lastAnswer (inputs : List MessageInput) : Option String :=
  (answers (fun phase => !isCommentary phase) inputs).getLast?.or
    (answers isCommentary inputs).getLast?

section Inputs

variable {item : String} {inputs : List MessageInput}

theorem join_deltasOf (item : String) (inputs : List MessageInput) :
    (String.join (deltasOf item inputs)).toList = inputChars item inputs := by
  rw [String.toList_join]
  induction inputs with
  | nil => rfl
  | cons input rest ih =>
    rw [inputChars,flatMap_cons,← inputChars,← ih,deltasOf]
    cases input with
    | delta own text =>
      by_cases same : own = item
      · simp [deltaOf,MessageInput.chars,same,deltasOf]
      · simp [deltaOf,MessageInput.chars,same,deltasOf]
    | completed own phase text =>
      simp [deltaOf,MessageInput.chars,deltasOf,filterMap_cons]

theorem any_deltasOf :
    (deltasOf item inputs).any (· ≠ "") = true ↔ inputChars item inputs ≠ [] := by
  rw [← join_deltasOf,String.toList_join,Ne,flatMap_eq_nil_iff]
  simp

theorem resultingText_streamed (text : String) (spoken : inputChars item inputs ≠ []) :
    resultingText inputs item text = String.ofList (inputChars item inputs) := by
  rw [resultingText,if_pos (any_deltasOf.mpr spoken),← join_deltasOf,String.ofList_toList]

theorem resultingText_final (text : String) (mute : inputChars item inputs = []) :
    resultingText inputs item text = (compact text).getD "" :=
  if_neg fun spoken => any_deltasOf.mp spoken mute

theorem answers_all (none_final : answers (fun phase => !isCommentary phase) inputs = []) :
    answers (fun _ => true) inputs = answers isCommentary inputs := by
  refine filterMap_congr fun input member => ?_
  have silent := filterMap_eq_nil_iff.mp none_final input member
  cases input with
  | delta own text => rfl
  | completed own phase text =>
    cases commentary : isCommentary phase with
    | true => simp [answer,commentary]
    | false =>
      simp only [answer,commentary,Bool.not_false] at silent ⊢
      simpa using silent

theorem lastAnswer_none : lastAnswer inputs = none ↔
    ∀ item phase text, .completed item phase text ∈ inputs →
      Text.isBlank (resultingText inputs item text) = true := by
  rw [lastAnswer,or_eq_none_iff,getLast?_eq_none_iff,getLast?_eq_none_iff,
    answers,answers,filterMap_eq_nil_iff,filterMap_eq_nil_iff]
  constructor
  · rintro ⟨final,commentary⟩ item phase text member
    cases kind : isCommentary phase with
    | true => simpa [answer,kind] using commentary _ member
    | false => simpa [answer,kind] using final _ member
  · intro blank
    have silent : ∀ keep, ∀ input ∈ inputs, answer keep inputs input = none := by
      intro keep input member
      cases input with
      | delta own text => rfl
      | completed own phase text => simp [answer,blank own phase text member]
    exact ⟨silent _,silent _⟩

end Inputs

section Log

variable {inputs : List MessageInput} {log : List TurnEvent} {pending : Option TextChunk}
  {streamed : List String} {stamped : List (Nat × TurnEvent)}

variable {input : MessageInput}

theorem finishOf_closes {event : TurnEvent} (h : finishOf inputs input = some event) :
    event.itemId = input.completes ∧ event.itemId = some input.item := by
  cases input with
  | delta own text => cases h
  | completed own phase text =>
    simp only [finishOf] at h
    split at h
    · obtain ⟨out,-,rfl⟩ := map_eq_some_iff.mp h
      exact ⟨rfl,rfl⟩
    · cases h
      exact ⟨rfl,rfl⟩

def ending (allowCommentary : Bool) (log : List TurnEvent) (event : TurnEvent) : Option String :=
  (finishing allowCommentary log (0, event)).map Prod.snd

theorem finishing_ending (allowCommentary : Bool) (log : List TurnEvent)
    (stamped : List (Nat × TurnEvent)) :
    (stamped.filterMap (finishing allowCommentary log)).map Prod.snd =
      ((stamped.map Prod.snd).filter TurnEvent.closes).filterMap (ending allowCommentary log) := by
  rw [map_filterMap,filterMap_filter,filterMap_map]
  refine filterMap_congr fun stamp _ => ?_
  obtain ⟨number,event⟩ := stamp
  cases event with
  | messageCompleted item text phase =>
    simp only [finishing,ending,Function.comp,TurnEvent.closes,if_true]
    split <;> rfl
  | messageDelta | messageStarted | activity => rfl

theorem wireName_commentary (phase : Option MessagePhase) :
    phase.map MessagePhase.wireName ≠ some "commentary" ↔ isCommentary phase = false := by
  cases phase with
  | none => decide
  | some phase => cases phase <;> decide

theorem ending_finishOf (h : StreamKept inputs log pending streamed) (allowCommentary : Bool)
    (member : input ∈ inputs) :
    (finishOf inputs input).bind (ending allowCommentary log) =
      answer (fun phase => allowCommentary || !isCommentary phase) inputs input := by
  cases input with
  | delta own text => rfl
  | completed item phase text =>
    have kept := h.text item
    rw [h.closed item ⟨_,member,rfl⟩,append_nil] at kept
    have keep : (allowCommentary = true ∨
          phase.map MessagePhase.wireName ≠ some "commentary") ↔
        (allowCommentary || !isCommentary phase) = true := by
      rw [wireName_commentary,Bool.or_eq_true,Bool.not_eq_true']
    by_cases mute : inputChars item inputs = []
    · rw [answer,resultingText_final text mute]
      simp only [finishOf,if_pos mute]
      cases compacted : compact text with
      | none =>
        rw [if_neg fun kept => absurd kept.2 (by decide)]
        rfl
      | some out =>
        have text : outputText log item (some out) = out := by
          rw [outputText,kept,mute]
          simp only [getD_some]
          split
          · next empty => exact empty.symm
          · rfl
        simp only [map_some,bind_some,ending,finishing,text,keep,
          getD_some]
        split <;> rfl
    · rw [answer,resultingText_streamed text mute]
      have text : outputText log item none = String.ofList (inputChars item inputs) := by
        rw [outputText,kept]
        rfl
      simp only [finishOf,if_neg mute,bind_some,ending,finishing,text,keep]
      split <;> rfl

section Streams

variable (h : StreamKept inputs (stamped.map Prod.snd) pending streamed)

include h

theorem StreamKept.singleClose (orderly : Orderly inputs) : SingleClose stamped := by
  have apart : ((stamped.map Prod.snd).filter TurnEvent.closes).Pairwise
      fun a b => a.itemId ≠ b.itemId := by
    rw [h.finished]
    refine List.Pairwise.filterMap _ (fun a b before x first y second => ?_) orderly
    rw [(finishOf_closes first).1,(finishOf_closes second).2]
    exact before
  rw [pairwise_filter,pairwise_map] at apart
  exact apart

theorem StreamKept.answers (allowCommentary : Bool) :
    (stamped.filterMap (finishing allowCommentary (stamped.map Prod.snd))).map Prod.snd =
      answers (fun phase => allowCommentary || !isCommentary phase) inputs := by
  rw [finishing_ending,h.finished,filterMap_filterMap]
  exact filterMap_congr fun input member => ending_finishOf h allowCommentary member

theorem reduceMessages_eq {turn : TurnRef} {rows : List JobEventRow} (orderly : Orderly inputs)
    (stored : List.Forall₂ (RowOf turn) rows stamped)
    (ordered : stamped.Pairwise fun a b => a.1 < b.1) :
    (choose false (collectMessages rows)).or (choose true (collectMessages rows)) =
      lastAnswer inputs := by
  have single := h.singleClose orderly
  rw [choose_eq stored ordered single,choose_eq stored ordered single,h.answers,h.answers,
    lastAnswer]
  simp only [Bool.false_or,Bool.true_or]
  cases final : Runtime.answers (fun phase => !isCommentary phase) inputs with
  | nil => rw [answers_all final]
  | cons first rest => rw [getLast?_cons,some_or,some_or]

end Streams

end Log

end Runtime
