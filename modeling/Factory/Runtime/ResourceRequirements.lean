import Factory.Library.Assoc
import Factory.Library.Quantity
import Factory.Library.Result
import Factory.Library.Text
import Mathlib.Data.Set.Operations

namespace Runtime

open Result Quantities List

structure KubernetesResourceConfig where
  cpuRequestMillis : Option Nat
  memoryRequestMib : Option Nat
  cpuLimitMillis : Option Nat
  memoryLimitMib : Option Nat
  gpuResource : Option String
  gpuCount : Nat
  deriving DecidableEq

structure ResourceRequirements where
  requests : Option (List (String × String))
  limits : Option (List (String × String))
  deriving DecidableEq

def ResourceRequirements.assemble (requests limits : List (String × String)) :
    Option ResourceRequirements :=
  let present (values : List (String × String)) := if values = [] then none else some values
  if requests = [] ∧ limits = [] then none else some ⟨present requests, present limits⟩

def splitOnce (mark : Char) (text : String) : Option (String × String) :=
  let before := text.toList.takeWhile (· ≠ mark)
  match text.toList.drop before.length with
  | [] => none
  | _ :: after => some (String.ofList before, String.ofList after)

def validLabel (allowed : Char → Bool) (label : List Char) : Bool :=
  label ≠ [] ∧ label.length ≤ 63 ∧ label.head?.any Char.isAlphanum ∧
    label.getLast?.any Char.isAlphanum ∧ label.all allowed

def validDnsLabel : List Char → Bool :=
  validLabel (fun c => c.isLower || c.isDigit || c = '-')

def validateExtendedResourceName (resource : String) : Except String Unit := do
  let (domain, name) ← okOr (splitOnce '/' resource)
    "GPU resource must be a fully qualified extended resource such as nvidia.com/gpu"
  ensure ('/' ∉ name.toList ∧ domain ≠ "" ∧ domain.utf8ByteSize ≤ 253 ∧
      (domain.toList.splitOn '.').all validDnsLabel ∧ domain ∉ ["kubernetes.io", "k8s.io"] ∧
      ¬ ".kubernetes.io".toList <:+ domain.toList ∧ ¬ ".k8s.io".toList <:+ domain.toList)
    "GPU resource must be a fully qualified non-Kubernetes extended resource such as nvidia.com/gpu"
  ensure (validLabel (fun c => c.isAlphanum || c ∈ ['.', '_', '-']) name.toList)
    "GPU resource must be a fully qualified extended resource such as nvidia.com/gpu"

def canonicalMemory : Nat → List String → String
  | value, unit :: next :: rest =>
      if value % 1024 = 0 then canonicalMemory (value / 1024) (next :: rest)
      else toString value ++ unit
  | value, units => toString value ++ units.headD ""

def memoryUnits : List String := ["Mi", "Gi", "Ti", "Pi"]

def atMost (request limit : Option Nat) : Bool :=
  (request.bind fun r => limit.map fun l => decide (r ≤ l)).getD true

namespace KubernetesResourceConfig

def normalize (c : KubernetesResourceConfig) : Except String KubernetesResourceConfig := do
  [("CPU request millicores", c.cpuRequestMillis), ("memory request MiB", c.memoryRequestMib),
    ("CPU limit millicores", c.cpuLimitMillis), ("memory limit MiB", c.memoryLimitMib)].forM
    fun (field, value) => ensure (∀ v ∈ value, 0 < v) (field ++ " must be positive")
  let c := { c with
    cpuRequestMillis := c.cpuRequestMillis.or c.cpuLimitMillis
    memoryRequestMib := c.memoryRequestMib.or c.memoryLimitMib }
  ensure (atMost c.cpuRequestMillis c.cpuLimitMillis) "CPU request cannot exceed its limit"
  ensure (atMost c.memoryRequestMib c.memoryLimitMib) "memory request cannot exceed its limit"
  let resource := (c.gpuResource.map Text.trim).filter (· ≠ "")
  if c.gpuCount = 0 then pure { c with gpuResource := none }
  else
    let name ← okOr resource "GPU resource name is required when GPU count is positive"
    validateExtendedResourceName name
    pure { c with gpuResource := resource }

def cpuText (millis : Nat) : String :=
  if millis % 1000 = 0 then toString (millis / 1000) else toString millis ++ "m"

def resourceMap (cpu memory : Option Nat) : List (String × String) :=
  (cpu.map fun millis => ("cpu", cpuText millis)).toList ++
    (memory.map fun mib => ("memory", canonicalMemory mib memoryUnits)).toList

def requirements (c : KubernetesResourceConfig) : Except String (Option ResourceRequirements) := do
  let requests := resourceMap c.cpuRequestMillis c.memoryRequestMib
  let limits := resourceMap c.cpuLimitMillis c.memoryLimitMib
  let (requests, limits) ←
    if 0 < c.gpuCount then do
      let resource ← okOr c.gpuResource "GPU resource name is required when GPU count is positive"
      validateExtendedResourceName resource
      let insert := Assoc.alter resource fun _ => toString c.gpuCount
      pure (insert requests, insert limits)
    else pure (requests, limits)
  pure (ResourceRequirements.assemble requests limits)

end KubernetesResourceConfig

def denoted (entry : String × String) : String × Option Amount :=
  (entry.1, (parse entry.2).map Quantity.amount)

namespace ResourceRequirements

def emittedRequests (r : Option ResourceRequirements) : List (String × String) :=
  (r.bind (·.requests)).getD []

def emittedLimits (r : Option ResourceRequirements) : List (String × String) :=
  (r.bind (·.limits)).getD []

def readBack (r : ResourceRequirements) : ResourceRequirements :=
  let stored := fun values : List (String × String) => values.map (Prod.map id reserialise)
  ⟨r.requests.map stored, r.limits.map stored⟩

end ResourceRequirements

open ResourceRequirements

namespace KubernetesResourceConfig

def entries {α : Type} (decimal binary : Nat → α) (cpu memory : Option Nat)
    (c : KubernetesResourceConfig) : List (String × α) :=
  (cpu.map fun millis => ("cpu", decimal millis)).toList ++
    (memory.map fun mib => ("memory", binary mib)).toList ++
    if 0 < c.gpuCount then
      (c.gpuResource.map fun name => (name, decimal (c.gpuCount * 1000))).toList
    else []

def requestAmounts (c : KubernetesResourceConfig) : List (String × Amount) :=
  entries (⟨.decimal, ·⟩) (⟨.binary, ·⟩) c.cpuRequestMillis c.memoryRequestMib c

def limitAmounts (c : KubernetesResourceConfig) : List (String × Amount) :=
  entries (⟨.decimal, ·⟩) (⟨.binary, ·⟩) c.cpuLimitMillis c.memoryLimitMib c

structure Exact (c : KubernetesResourceConfig) (r : Option ResourceRequirements) : Prop where
  requests : (emittedRequests r).map denoted = c.requestAmounts.map (Prod.map id some)
  limits : (emittedLimits r).map denoted = c.limitAmounts.map (Prod.map id some)
  canonical : ∀ entry ∈ emittedRequests r ++ emittedLimits r,
    ∃ a : Amount, a.canonical.text = entry.2
  undrifted : r.map readBack = r
  bounded : ∀ name request limit, (name, request) ∈ c.requestAmounts →
    (name, limit) ∈ c.limitAmounts → request.family = limit.family ∧ request.units ≤ limit.units

def Fractional (c : KubernetesResourceConfig) : Prop :=
  (∀ millis ∈ c.cpuRequestMillis, millis % 1000000 ≠ 0) ∧
    (∀ millis ∈ c.cpuLimitMillis, millis % 1000000 ≠ 0) ∧
    (0 < c.gpuCount → c.gpuCount % 1000 ≠ 0)

def cpuQuantity (millis : Nat) : Quantity :=
  if millis % 1000 = 0 then ⟨millis / 1000, .one⟩ else ⟨millis, .milli⟩

theorem cpuQuantity_text (millis : Nat) : cpuText millis = (cpuQuantity millis).text := by
  unfold cpuQuantity cpuText
  split
  · simp [Quantity.text,Suffix.text]
  · rfl

theorem cpuQuantity_amount (millis : Nat) : (cpuQuantity millis).amount = ⟨.decimal, millis⟩ := by
  unfold cpuQuantity
  split
  · next whole =>
    simp [Quantity.amount,Suffix.family,Suffix.factor,
      Nat.div_mul_cancel (Nat.dvd_of_mod_eq_zero whole)]
  · simp [Quantity.amount,Suffix.family,Suffix.factor]

theorem cpuText_canonical (millis : Nat) :
    (∃ a : Amount, a.canonical.text = cpuText millis) ↔ millis % 1000000 ≠ 0 := by
  rw [cpuQuantity_text]
  refine (canonical_text _).trans ?_
  rw [cpuQuantity_amount]
  constructor
  · intro same kilo
    have suffix := congrArg Quantity.suffix same
    have one : (cpuQuantity millis).suffix = .one := by rw [cpuQuantity,if_pos (by omega)]
    rw [one] at suffix
    simp only [Amount.canonical,Family.descending,find?_cons,Suffix.factor,kilo,
      decide_true] at suffix
    split at suffix
    · cases suffix
    · split at suffix
      · cases suffix
      · cases suffix
  · intro kilo
    have giga : millis % 1000000000000 ≠ 0 := by omega
    have mega : millis % 1000000000 ≠ 0 := by omega
    by_cases whole : millis % 1000 = 0
    · simp [Amount.canonical,Family.descending,Suffix.factor,cpuQuantity,kilo,giga,mega,whole]
    · simp [Amount.canonical,Family.descending,Suffix.factor,cpuQuantity,kilo,giga,mega,whole,
        Nat.mod_one]

theorem canonicalMemory_text (mib : Nat) :
    canonicalMemory mib memoryUnits = (Amount.canonical ⟨.binary, mib⟩).text := by
  have tebi : mib % 1048576 = 0 ↔ mib % 1024 = 0 ∧ mib / 1024 % 1024 = 0 := by omega
  have pebi : mib % 1073741824 = 0 ↔
      mib % 1024 = 0 ∧ mib / 1024 % 1024 = 0 ∧ mib / 1048576 % 1024 = 0 := by omega
  simp only [canonicalMemory,memoryUnits,Nat.div_div_eq_div_mul,Amount.canonical,
    Family.descending,find?_cons,Suffix.factor,tebi,pebi]
  by_cases one : mib % 1024 = 0
  · by_cases two : mib / 1024 % 1024 = 0
    · by_cases three : mib / 1048576 % 1024 = 0
      · simp [one,two,three,Quantity.text,Suffix.text]
      · simp [one,two,three,Quantity.text,Suffix.text]
    · simp [one,two,Quantity.text,Suffix.text]
  · simp [one,Quantity.text,Suffix.text,Nat.mod_one]

variable {c n : KubernetesResourceConfig} {cpu memory : Option Nat} {name : String}

theorem mem_entries {α : Type} {decimal binary : Nat → α} {value : α} :
    (name, value) ∈ entries decimal binary cpu memory c ↔
      (∃ millis, cpu = some millis ∧ "cpu" = name ∧ decimal millis = value) ∨
        (∃ mib, memory = some mib ∧ "memory" = name ∧ binary mib = value) ∨
          0 < c.gpuCount ∧ ∃ resource, c.gpuResource = some resource ∧ resource = name ∧
            decimal (c.gpuCount * 1000) = value := by
  simp only [entries,mem_append,Option.mem_toList,Option.map_eq_some_iff,Prod.mk.injEq,
    mem_ite_nil_right,or_assoc]

def Named (c : KubernetesResourceConfig) : Prop := 0 < c.gpuCount →
  ∃ name, c.gpuResource = some name ∧ validateExtendedResourceName name = .ok ()

theorem normalize_ok (h : c.normalize = .ok n) :
    n.cpuRequestMillis = c.cpuRequestMillis.or c.cpuLimitMillis ∧
      n.cpuLimitMillis = c.cpuLimitMillis ∧ n.gpuCount = c.gpuCount ∧
      atMost n.cpuRequestMillis n.cpuLimitMillis = true ∧
      atMost n.memoryRequestMib n.memoryLimitMib = true ∧ n.Named := by
  simp only [normalize,bind_ok,ensure_ok] at h
  obtain ⟨-,-,-,cpu,-,memory,h⟩ := h
  split at h
  · next none =>
    cases pure_ok.mp h
    exact ⟨rfl,rfl,rfl,cpu,memory,fun some => absurd none (Nat.ne_of_gt some)⟩
  · simp only [bind_ok,okOr_ok,pure_ok] at h
    obtain ⟨name,named,⟨⟩,valid,rfl⟩ := h
    exact ⟨rfl,rfl,rfl,cpu,memory,fun _ => ⟨name,named,valid⟩⟩

theorem Named.ne (named : n.Named) (some : 0 < n.gpuCount) (known : n.gpuResource = .some name) :
    "cpu" ≠ name ∧ "memory" ≠ name := by
  obtain ⟨_,same,valid⟩ := named some
  cases known.symm.trans same
  constructor
  · rintro rfl
    revert valid
    decide
  · rintro rfl
    revert valid
    decide

def texts : Option Nat → Option Nat → KubernetesResourceConfig → List (String × String) :=
  entries cpuText (canonicalMemory · memoryUnits)

theorem requirements_eq (named : n.Named) :
    n.requirements = .ok (assemble (texts n.cpuRequestMillis n.memoryRequestMib n)
      (texts n.cpuLimitMillis n.memoryLimitMib n)) := by
  unfold requirements texts entries
  by_cases some : 0 < n.gpuCount
  · obtain ⟨name,known,valid⟩ := named some
    obtain ⟨notCpu,notMemory⟩ := named.ne some known
    have inserted (cpu memory : Option Nat) :
        Assoc.alter name (fun _ => toString n.gpuCount) (resourceMap cpu memory) =
          resourceMap cpu memory ++ [(name, cpuText (n.gpuCount * 1000))] := by
      cases cpu <;> cases memory <;> simp [resourceMap,Assoc.alter,notCpu,notMemory,cpuText]
    simp only [some,known,okOr,bind,Except.bind,valid,pure,Except.pure,inserted,if_true]
    rfl
  · simp only [some,bind,Except.bind,pure,Except.pure,if_false,append_nil]
    rfl

theorem emitted_assemble (requests limits : List (String × String)) :
    emittedRequests (assemble requests limits) = requests ∧
      emittedLimits (assemble requests limits) = limits := by
  cases requests <;> cases limits <;> simp [assemble,emittedRequests,emittedLimits]

theorem assemble_undrifted {requests limits : List (String × String)}
    (stable : ∀ entry ∈ requests ++ limits, reserialise entry.2 = entry.2) :
    (assemble requests limits).map readBack = assemble requests limits := by
  have stored (values : List (String × String)) (own : values ⊆ requests ++ limits) :
      values.map (Prod.map id reserialise) = values := by
    refine (map_congr_left fun entry listed => ?_).trans (map_id _)
    exact Prod.ext rfl (stable entry (own listed))
  have first := stored requests (subset_append_left _ _)
  have second := stored limits (subset_append_right _ _)
  cases requests <;> cases limits <;> simp_all [assemble,readBack]

theorem texts_denoted (cpu memory : Option Nat) (c : KubernetesResourceConfig) :
    (texts cpu memory c).map denoted =
      (entries (⟨.decimal, ·⟩) (⟨.binary, ·⟩) cpu memory c).map (Prod.map id some) := by
  unfold texts entries
  cases cpu <;> cases memory <;> cases c.gpuResource <;> split <;>
    simp [denoted,cpuQuantity_text,canonicalMemory_text,parse_text,cpuQuantity_amount,
      canonical_amount]

theorem texts_canonical (named : c.Named) :
    (∀ entry ∈ texts cpu memory c, ∃ a : Amount, a.canonical.text = entry.2) ↔
      (∀ millis ∈ cpu, millis % 1000000 ≠ 0) ∧ (0 < c.gpuCount → c.gpuCount % 1000 ≠ 0) := by
  have shifted : c.gpuCount * 1000 % 1000000 ≠ 0 ↔ c.gpuCount % 1000 ≠ 0 := by omega
  have memories (mib : Nat) : ∃ a : Amount, a.canonical.text = canonicalMemory mib memoryUnits :=
    ⟨_,(canonicalMemory_text mib).symm⟩
  rw [← shifted]
  simp only [← cpuText_canonical]
  constructor
  · intro all
    refine ⟨fun millis listed => ?_,fun some => ?_⟩
    · exact all ("cpu", _) (mem_entries.mpr (.inl ⟨millis,listed,rfl,rfl⟩))
    · obtain ⟨name,known,-⟩ := named some
      exact all (name, _) (mem_entries.mpr (.inr (.inr ⟨some,name,known,rfl,rfl⟩)))
  · rintro ⟨cpus,gpus⟩ ⟨name,text⟩ listed
    rcases mem_entries.mp listed with
      ⟨millis,known,-,rfl⟩ | ⟨mib,-,-,rfl⟩ | ⟨some,_,-,-,rfl⟩
    · exact cpus millis known
    · exact memories mib
    · exact gpus some

theorem atMost_le {request limit : Option Nat} {r l : Nat} (h : atMost request limit = true)
    (asked : request = some r) (given : limit = some l) : r ≤ l := by
  simpa [atMost,asked,given] using h

theorem amounts_bounded (cpus : atMost n.cpuRequestMillis n.cpuLimitMillis = true)
    (memories : atMost n.memoryRequestMib n.memoryLimitMib = true) (named : n.Named)
    {request limit : Amount} (asked : (name, request) ∈ n.requestAmounts)
    (given : (name, limit) ∈ n.limitAmounts) :
    request.family = limit.family ∧ request.units ≤ limit.units := by
  rcases mem_entries.mp asked with
    ⟨r,wanted,rfl,rfl⟩ | ⟨r,wanted,rfl,rfl⟩ | ⟨some,_,known,rfl,rfl⟩
  · rcases mem_entries.mp given with
      ⟨l,offered,-,rfl⟩ | ⟨_,_,same,_⟩ | ⟨some,_,known,rfl,rfl⟩
    · exact ⟨rfl,atMost_le cpus wanted offered⟩
    · exact absurd same (by decide)
    · exact absurd rfl (named.ne some known).1
  · rcases mem_entries.mp given with
      ⟨_,_,same,_⟩ | ⟨l,offered,-,rfl⟩ | ⟨some,_,known,rfl,rfl⟩
    · exact absurd same (by decide)
    · exact ⟨rfl,atMost_le memories wanted offered⟩
    · exact absurd rfl (named.ne some known).2
  · obtain ⟨notCpu,notMemory⟩ := named.ne some known
    rcases mem_entries.mp given with ⟨_,_,same,_⟩ | ⟨_,_,same,_⟩ | ⟨-,_,-,-,rfl⟩
    · exact absurd same notCpu
    · exact absurd same notMemory
    · exact ⟨rfl,le_rfl⟩

theorem requirements_exact (c n : KubernetesResourceConfig) (h : c.normalize = .ok n) :
    ∃ r, n.requirements = .ok r ∧ (n.Exact r ↔ c.Fractional) := by
  obtain ⟨request,limit,count,cpus,memories,named⟩ := normalize_ok h
  refine ⟨_,requirements_eq named,?_⟩
  obtain ⟨first,second⟩ := emitted_assemble (texts n.cpuRequestMillis n.memoryRequestMib n)
    (texts n.cpuLimitMillis n.memoryLimitMib n)
  have fractional : (∀ entry ∈ texts n.cpuRequestMillis n.memoryRequestMib n ++
      texts n.cpuLimitMillis n.memoryLimitMib n, ∃ a : Amount, a.canonical.text = entry.2) ↔
        c.Fractional := by
    rw [forall_mem_append,texts_canonical named,texts_canonical named,request,limit,count]
    unfold Fractional
    cases c.cpuRequestMillis with
    | none => simp +contextual
    | some millis =>
      simp only [Option.some_or]
      tauto
  constructor
  · intro exact
    have forms := exact.canonical
    rw [first,second] at forms
    exact fractional.mp forms
  · intro holds
    have forms := fractional.mpr holds
    refine ⟨?_,?_,?_,assemble_undrifted fun entry listed => ?_,fun _ _ _ =>
      amounts_bounded cpus memories named⟩
    · rw [first]
      exact texts_denoted _ _ n
    · rw [second]
      exact texts_denoted _ _ n
    · rw [first,second]
      exact forms
    · obtain ⟨a,same⟩ := forms entry listed
      rw [← same,reserialise_canonical]

def thousandCores : KubernetesResourceConfig := ⟨none, none, some 1000000, none, none, 0⟩

theorem requirements_drift :
    thousandCores.normalize = .ok { thousandCores with cpuRequestMillis := some 1000000 } ∧
      requirements { thousandCores with cpuRequestMillis := some 1000000 } =
        .ok (some ⟨some [("cpu", "1000")], some [("cpu", "1000")]⟩) ∧
      readBack ⟨some [("cpu", "1000")], some [("cpu", "1000")]⟩ =
        ⟨some [("cpu", "1k")], some [("cpu", "1k")]⟩ := by
  decide +kernel

def gpuWorker : KubernetesResourceConfig :=
  ⟨some 500, some 1024, some 2000, some 4096, some "nvidia.com/gpu", 2⟩

theorem requirements_exact_gpu :
    gpuWorker.normalize = .ok gpuWorker ∧ gpuWorker.Fractional ∧
      ∃ r, gpuWorker.requirements = .ok r ∧ (gpuWorker.Exact r ↔ gpuWorker.Fractional) := by
  have normal : gpuWorker.normalize = .ok gpuWorker := by decide +kernel
  exact ⟨normal,by simp [Fractional,gpuWorker],requirements_exact gpuWorker gpuWorker normal⟩

end KubernetesResourceConfig

end Runtime
