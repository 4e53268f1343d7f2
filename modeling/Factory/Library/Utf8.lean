import Mathlib.Data.List.Basic

namespace Utf8

open List

def encode (chars : List Char) : List UInt8 := chars.flatMap String.utf8EncodeChar

def isContinuation (byte : UInt8) : Bool := 128 ≤ byte.toNat ∧ byte.toNat < 192

def isCharBoundary (bytes : List UInt8) (index : Nat) : Bool :=
  index = 0 ||
    match bytes[index]? with
    | none => index = bytes.length
    | some byte => !isContinuation byte

def floor (bytes : List UInt8) : Nat → Nat
  | 0 => 0
  | index + 1 => if isCharBoundary bytes (index + 1) then index + 1 else floor bytes index

variable {chars rest : List Char} {c : Char} {index : Nat}

theorem encode_cons (c : Char) (rest : List Char) :
    encode (c :: rest) = String.utf8EncodeChar c ++ encode rest := rfl

theorem encode_append (front back : List Char) :
    encode (front ++ back) = encode front ++ encode back :=
  flatMap_append

theorem length_encode_take (chars : List Char) (count : Nat) :
    (encode (chars.take count)).length ≤ (encode chars).length := by
  conv_rhs => rw [← take_append_drop count chars,encode_append,length_append]
  exact Nat.le_add_right _ _

theorem isContinuation_low {n : Nat} (small : n < 64) : isContinuation (UInt8.ofNat (n + 128)) := by
  have value : (UInt8.ofNat (n + 128)).toNat = n + 128 := by
    rw [UInt8.toNat_ofNat']
    omega
  simp only [isContinuation,value,decide_eq_true_eq]
  omega

theorem not_isContinuation {n : Nat} (outside : n < 128 ∨ 192 ≤ n) (small : n < 256) :
    isContinuation (UInt8.ofNat n) = false := by
  have value : (UInt8.ofNat n).toNat = n := by
    rw [UInt8.toNat_ofNat']
    omega
  simp only [isContinuation,value,decide_eq_false_iff_not]
  omega

theorem encodeChar_shape (c : Char) :
    ∃ lead tail, String.utf8EncodeChar c = lead :: tail ∧ isContinuation lead = false ∧
      ∀ byte ∈ tail, isContinuation byte = true := by
  unfold String.utf8EncodeChar
  generalize c.val.toNat = v
  dsimp only
  split
  · exact ⟨_,[],rfl,not_isContinuation (by omega) (by omega),nofun⟩
  split
  · refine ⟨_,_,rfl,not_isContinuation (by omega) (by omega),?_⟩
    simp only [forall_mem_cons]
    exact ⟨isContinuation_low (by omega),nofun⟩
  split
  · refine ⟨_,_,rfl,not_isContinuation (by omega) (by omega),?_⟩
    simp only [forall_mem_cons]
    exact ⟨isContinuation_low (by omega),isContinuation_low (by omega),nofun⟩
  · refine ⟨_,_,rfl,not_isContinuation (by omega) (by omega),?_⟩
    simp only [forall_mem_cons]
    exact ⟨isContinuation_low (by omega),isContinuation_low (by omega),
      isContinuation_low (by omega),nofun⟩

theorem boundary_inside (positive : 0 < index) (inside : index < c.utf8Size) :
    isCharBoundary (encode (c :: rest)) index = false := by
  obtain ⟨lead,tail,shape,_,continued⟩ := encodeChar_shape c
  have size : tail.length + 1 = c.utf8Size := by
    rw [← String.length_utf8EncodeChar,shape]
    rfl
  obtain ⟨offset,rfl⟩ := Nat.exists_eq_add_one.mpr positive
  have short : offset < tail.length := by omega
  have found : (encode (c :: rest))[offset + 1]? = some tail[offset] := by
    rw [encode_cons,shape,cons_append,getElem?_cons_succ,
      getElem?_append_left short,getElem?_eq_getElem short]
  simp [isCharBoundary,found,continued _ (getElem_mem short)]

theorem boundary_start (chars : List Char) :
    (match (encode chars)[0]? with
      | none => decide (0 = (encode chars).length)
      | some byte => !isContinuation byte) = true := by
  cases chars with
  | nil => rfl
  | cons c rest =>
    obtain ⟨lead,tail,shape,starts,_⟩ := encodeChar_shape c
    simp [encode_cons,shape,starts]

theorem boundary_shift (index : Nat) :
    isCharBoundary (encode (c :: rest)) (c.utf8Size + index) =
      isCharBoundary (encode rest) index := by
  have size := String.length_utf8EncodeChar c
  have positive := c.utf8Size_pos
  have shifted : (encode (c :: rest))[c.utf8Size + index]? = (encode rest)[index]? := by
    rw [encode_cons,getElem?_append_right (by omega),size,Nat.add_sub_cancel_left]
  have total : (encode (c :: rest)).length = c.utf8Size + (encode rest).length := by
    rw [encode_cons,length_append,size]
  unfold isCharBoundary
  rw [shifted,total]
  cases index with
  | zero =>
    have start := boundary_start rest
    simp only [Nat.add_zero,decide_true,Bool.true_or]
    rw [Bool.or_eq_true]
    right
    cases found : (encode rest)[0]? with
    | none =>
      rw [found] at start
      have empty : 0 = (encode rest).length := of_decide_eq_true start
      simp [← empty]
    | some byte =>
      rw [found] at start
      exact start
  | succ index => simp

theorem isCharBoundary_iff :
    isCharBoundary (encode chars) index = true ↔
      ∃ count, index = (encode (chars.take count)).length := by
  induction chars generalizing index with
  | nil => simp [isCharBoundary,encode]
  | cons c rest ih =>
    have size := String.length_utf8EncodeChar c
    have longer : ∀ count, (encode ((c :: rest).take (count + 1))).length =
        c.utf8Size + (encode (rest.take count)).length := fun count => by
      rw [take_succ_cons,encode_cons,length_append,size]
    by_cases beyond : c.utf8Size ≤ index
    · obtain ⟨offset,rfl⟩ := Nat.exists_eq_add_of_le beyond
      rw [boundary_shift,ih]
      constructor
      · rintro ⟨count,rfl⟩
        exact ⟨count + 1,(longer count).symm⟩
      · rintro ⟨count,same⟩
        cases count with
        | zero =>
          have positive := c.utf8Size_pos
          have none : (encode ((c :: rest).take 0)).length = 0 := rfl
          omega
        | succ count =>
          rw [longer] at same
          exact ⟨count,by omega⟩
    · by_cases zero : index = 0
      · subst zero
        exact ⟨fun _ => ⟨0,rfl⟩,fun _ => rfl⟩
      · rw [boundary_inside (by omega) (by omega)]
        refine ⟨nofun,?_⟩
        rintro ⟨count,same⟩
        cases count with
        | zero => exact absurd same zero
        | succ count =>
          rw [longer] at same
          omega

theorem floor_eq {bytes : List UInt8} {target : Nat} (limit : Nat)
    (boundary : isCharBoundary bytes target = true) (below : target ≤ limit)
    (last : ∀ later, target < later → later ≤ limit → isCharBoundary bytes later = false) :
    floor bytes limit = target := by
  induction limit with
  | zero => exact (Nat.le_zero.mp below).symm
  | succ limit ih =>
    rw [floor]
    by_cases top : target = limit + 1
    · rw [if_pos (top ▸ boundary),top]
    · have missed := last (limit + 1) (by omega) (Nat.le_refl _)
      rw [if_neg (by rw [missed]; exact Bool.false_ne_true)]
      exact ih (by omega) fun later above within => last later above (by omega)

end Utf8
