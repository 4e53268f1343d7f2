import Mathlib.Data.List.Forall2

namespace Result

open List

variable {ε α β : Type}

def ensure (c : Prop) [Decidable c] (e : ε) : Except ε Unit :=
  if c then .ok () else .error e

def okOr (o : Option α) (e : ε) : Except ε α :=
  match o with
  | some a => .ok a
  | none => .error e

variable {x : Except ε α} {f : α → Except ε β} {e : ε} {a : α} {xs : List α} {g : α → Except ε β}

theorem bind_ok {b : β} :
    (x >>= f) = .ok b ↔ ∃ a, x = .ok a ∧ f a = .ok b := by
  cases x with
  | error | ok => simp [bind,Except.bind]

theorem bind_error :
    (x >>= f) = .error e ↔ x = .error e ∨ ∃ a, x = .ok a ∧ f a = .error e := by
  cases x with
  | error e' => simp [bind,Except.bind]
  | ok a => simp [bind,Except.bind]

theorem map_error {f : α → β} :
    (f <$> x) = .error e ↔ x = .error e := by
  cases x with
  | error e' => simp [Functor.map,Except.map]
  | ok a => simp [Functor.map,Except.map]

theorem map_ok {f : α → β} {b : β} :
    (f <$> x) = .ok b ↔ ∃ a, x = .ok a ∧ f a = b := by
  cases x with
  | error | ok => simp [Functor.map,Except.map]

theorem mapError_ok {ε' : Type} {f : ε → ε'} : x.mapError f = .ok a ↔ x = .ok a := by
  cases x <;> simp [Except.mapError]

theorem ensure_ok {c : Prop} [Decidable c] {u : Unit} :
    ensure c e = .ok u ↔ c := by
  by_cases h : c <;> simp [ensure,h]

theorem ensure_error {c : Prop} [Decidable c] {e' : ε} :
    ensure c e = .error e' ↔ ¬ c ∧ e = e' := by
  by_cases h : c <;> simp [ensure,h]

theorem okOr_ok {o : Option α} : okOr o e = .ok a ↔ o = some a := by
  cases o <;> simp [okOr]

theorem okOr_error {o : Option α} {e' : ε} : okOr o e = .error e' ↔ o = none ∧ e = e' := by
  cases o <;> simp [okOr]

theorem pure_error : (pure a : Except ε α) = .error e ↔ False := by
  simp [pure,Except.pure]

theorem pure_ok {b : α} : (pure a : Except ε α) = .ok b ↔ a = b := by
  simp [pure,Except.pure]

theorem exists_ok (h : x.toOption.isSome = true) : ∃ a, x = .ok a := by
  cases x with
  | error e => cases h
  | ok a => exact ⟨a,rfl⟩

theorem toOption_some (h : x.toOption = some a) :
    x = .ok a := by
  cases x with
  | error e => cases h
  | ok b =>
    cases h
    rfl

theorem mapM_ok {ys : List β} (h : xs.mapM f = .ok ys) :
    ys.length = xs.length ∧ (∀ x ∈ xs, ∃ y ∈ ys, f x = .ok y) ∧
      ∀ y ∈ ys, ∃ x ∈ xs, f x = .ok y := by
  induction xs generalizing ys with
  | nil =>
    simp only [mapM_nil,pure_ok] at h
    subst h
    simp
  | cons x rest ih =>
    simp only [mapM_cons,bind_ok,pure_ok] at h
    obtain ⟨y,first,tail,others,rfl⟩ := h
    obtain ⟨length,forward,backward⟩ := ih others
    refine ⟨by rw [length_cons,length_cons,length],?_,?_⟩
    · intro z mem
      rcases mem_cons.mp mem with rfl | later
      · exact ⟨y,mem_cons_self,first⟩
      · obtain ⟨w,known,found⟩ := forward z later
        exact ⟨w,mem_cons_of_mem _ known,found⟩
    · intro z mem
      rcases mem_cons.mp mem with rfl | later
      · exact ⟨x,mem_cons_self,first⟩
      · obtain ⟨w,known,found⟩ := backward z later
        exact ⟨w,mem_cons_of_mem _ known,found⟩

theorem mapM_exists (h : ∀ x ∈ xs, ∃ y, f x = .ok y) :
    ∃ ys, xs.mapM f = .ok ys := by
  induction xs with
  | nil => exact ⟨[],rfl⟩
  | cons x rest ih =>
    obtain ⟨y,first⟩ := h x mem_cons_self
    obtain ⟨ys,others⟩ := ih fun z mem => h z (mem_cons_of_mem _ mem)
    refine ⟨y :: ys,?_⟩
    rw [mapM_cons,first,others]
    rfl

theorem mapM_singletons {xs : List α} {f : α → Except ε (List β)} {R : α → β → Prop}
    (single : ∀ x ∈ xs, ∀ ys, f x = .ok ys → ∃ y, ys = [y]) :
    (∃ yss, xs.mapM f = .ok yss ∧ List.Forall₂ R xs yss.flatten) ↔
      ∀ x ∈ xs, ∃ y, f x = .ok [y] ∧ R x y := by
  induction xs with
  | nil =>
    refine ⟨fun _ x mem => absurd mem not_mem_nil,fun _ => ⟨[],rfl,.nil⟩⟩
  | cons x rest ih =>
    have tail := ih fun z mem => single z (mem_cons_of_mem _ mem)
    simp only [forall_mem_cons,mapM_cons,bind_ok,pure_ok]
    rw [← tail]
    constructor
    · rintro ⟨yss,⟨ys,first,others,later,rfl⟩,related⟩
      obtain ⟨y,rfl⟩ := single x mem_cons_self ys first
      obtain ⟨here,there⟩ := forall₂_cons.mp related
      exact ⟨⟨y,first,here⟩,others,later,there⟩
    · rintro ⟨⟨y,first,here⟩,others,later,there⟩
      exact ⟨[y] :: others,⟨[y],first,others,later,rfl⟩,.cons here there⟩

theorem forM_ok {f : α → Except ε Unit} {u : Unit} (h : forM xs f = .ok u) :
    ∀ x ∈ xs, f x = .ok () := by
  induction xs with
  | nil => simp
  | cons x xs ih =>
    simp only [forM_cons,bind_ok] at h
    obtain ⟨_,hx,hxs⟩ := h
    intro y hy
    rcases mem_cons.mp hy with rfl | hy
    · exact hx
    · exact ih hxs y hy

theorem forM_ok_of {f : α → Except ε Unit} (h : ∀ x ∈ xs, f x = .ok ()) :
    forM xs f = .ok () := by
  induction xs with
  | nil => rfl
  | cons x xs ih =>
    rw [forM_cons,h x mem_cons_self]
    exact ih fun y hy => h y (mem_cons_of_mem x hy)

theorem scan_ok {κ : Type} {scan : List α → List κ → Except ε Unit} {key : α → κ}
    {check : α → Prop} (stop : ∀ seen, scan [] seen = .ok ())
    (next : ∀ x rest seen, scan (x :: rest) seen = .ok () ↔
      check x ∧ key x ∉ seen ∧ scan rest (key x :: seen) = .ok ())
    (xs : List α) (seen : List κ) :
    scan xs seen = .ok () ↔
      (∀ x ∈ xs, check x) ∧ (xs.map key).Nodup ∧ ∀ x ∈ xs, key x ∉ seen := by
  induction xs generalizing seen with
  | nil => simp [stop]
  | cons x rest ih =>
    rw [next,ih]
    simp only [mem_cons,forall_eq_or_imp,map_cons,nodup_cons,mem_map,
      not_or,not_exists,not_and]
    constructor
    · rintro ⟨first,fresh,others,distinct,later⟩
      exact ⟨⟨first,others⟩,⟨fun y hit => (later y hit).1,distinct⟩,fresh,
        fun y hit => (later y hit).2⟩
    · rintro ⟨⟨first,others⟩,⟨single,distinct⟩,fresh,later⟩
      exact ⟨first,fresh,others,distinct,fun y hit => ⟨single y hit,later y hit⟩⟩

theorem bind_congr_ok (h : ∀ a, x = .ok a → f a = g a) :
    x >>= f = x >>= g := by
  cases x with
  | error e => rfl
  | ok a => exact h a rfl

theorem mapM_congr (h : ∀ x ∈ xs, f x = g x) :
    xs.mapM f = xs.mapM g := by
  induction xs with
  | nil => rfl
  | cons x rest ih =>
    rw [mapM_cons,mapM_cons,h x mem_cons_self,
      ih fun y listed => h y (mem_cons_of_mem _ listed)]

end Result
