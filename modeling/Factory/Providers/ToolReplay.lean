import Factory.Library.JsonCompact
import Factory.Providers.WireNames

namespace Providers

open Json (Value)
open List ToolBinding

def Externals.Reads (env : Externals) (input : String) : Prop :=
  ∀ field ∈ ["patch", "input"], ∀ text, env.printJson (.object [(field, .string input)]) = text →
    Text.trim text = text ∧ env.parseJson text = .ok (.object [(field, .string input)])

structure ToolBinding.ReadsBack (env : Externals) (binding : ToolBinding)
    (arguments input : String) : Prop where
  generic : binding.kind.isApplyPatch = false →
    binding.normalizeCustomInput env arguments = .ok input
  patch : ∀ parsed, binding.kind.isApplyPatch = true → env.parsePatch input = .ok parsed →
    parsed.hunks ≠ [] → binding.normalizeCustomInput env arguments = .ok parsed.patch

namespace ToolCatalog

variable {env : Externals} {binding : ToolBinding} {input : String} {catalog : ToolCatalog}

theorem readsBack_chat (reads : env.Reads input) {nameSpace : Option String} {name : String}
    (kind : binding.kind = .custom name nameSpace) :
    binding.ReadsBack env (chatCustomArguments env nameSpace name input) input := by
  have patch : binding.kind.isApplyPatch =
      decide (nameSpace = none ∧ name = applyPatchToolName) := by
    rw [kind]
    cases nameSpace <;> simp [ToolKind.isApplyPatch]
  constructor
  · intro other
    obtain ⟨-,parsed⟩ := reads "input" (by simp) _ rfl
    have apart := of_decide_eq_false (patch.symm.trans other)
    simp [normalizeCustomInput,other,chatCustomArguments,apart,genericCustomInput,parsed,
      Except.toOption,Value.text,Value.get,Value.asStr]
  · intro parsed own patched hunks
    obtain ⟨trimmed,read⟩ := reads "patch" (by simp) _ rfl
    have both := of_decide_eq_true (patch.symm.trans own)
    simp [normalizeCustomInput,own,chatCustomArguments,both,normalizeApplyPatch,trimmed,
      applyPatchCandidate,read,Result.okOr,Value.asStr,bind,Except.bind,patched,hunks]

theorem replay_resolves {request : Value} (accepted : fromRequest request = some (.ok catalog))
    (reads : env.Reads input) (nameSpace : Option String) (name : String) :
    ((∃ binding ∈ catalog.bindings, binding.kind.name = name ∧
          binding.kind.nameSpace = nameSpace) →
        ∃ live, catalog.byWireName (catalog.historicalWireName nameSpace name) = some live ∧
          live.kind.name = name ∧ live.kind.nameSpace = nameSpace) ∧
      ∀ live, catalog.byWireName (catalog.historicalWireName nameSpace name) = some live →
        live.kind = .custom name nameSpace →
          live.ReadsBack env (chatCustomArguments env nameSpace name input) input := by
  obtain ⟨bindings,-,assigned⟩ := fromRequest_assigned accepted
  refine ⟨?_,fun live _ kind => readsBack_chat reads kind⟩
  rintro ⟨binding,listed,called,owned⟩
  have some : (catalog.bindings.find? fun binding =>
      binding.kind.name = name && binding.kind.nameSpace = nameSpace).isSome = true :=
    find?_isSome.mpr ⟨binding,listed,by simp [called,owned]⟩
  obtain ⟨live,found⟩ := Option.isSome_iff_exists.mp some
  have same := find?_some found
  have resolved := assigned_resolvable assigned live (mem_of_find?_eq_some found)
  refine ⟨live,?_,by simpa using same⟩
  rw [historicalWireName,wireName,found]
  exact resolved

def plainJson : Externals where
  printJson value := String.ofList (JsonCompact.compact value)
  parseJson text :=
    match text.toList.splitOn '"' with
    | [['\x7b'], field, [':'], value, ['\x7d']] =>
      .ok (.object [(String.ofList field, .string (String.ofList value))])
    | _ => .error "expected an object with one unescaped string field"
  parsePatch _ := .error "expected no patch"

def customTools : Value :=
  .object [("tools", .array [
    .object [("type", .string "function"), ("name", .string "run_it")],
    .object [("type", .string "custom"), ("name", .string "run it")]])]

theorem replay_resolves_custom :
    ∃ catalog, fromRequest customTools = some (.ok catalog) ∧
      ∃ live, catalog.byWireName (catalog.historicalWireName none "run it") = some live ∧
        live.kind = .custom "run it" none ∧
        chatCustomArguments plainJson none "run it" "ls -l" = "\x7b\"input\":\"ls -l\"\x7d" ∧
        live.normalizeCustomInput plainJson (chatCustomArguments plainJson none "run it" "ls -l") =
          .ok "ls -l" := by
  refine ⟨_,rfl,?_⟩
  have reads : plainJson.Reads "ls -l" := by
    rintro field listed text rfl
    rcases mem_pair.mp listed with rfl | rfl <;> exact ⟨by decide,rfl⟩
  obtain ⟨resolves,readsBack⟩ := @replay_resolves plainJson "ls -l" _ customTools rfl reads none
    "run it"
  obtain ⟨live,found,-⟩ := resolves ⟨_,mem_cons_of_mem _ mem_cons_self,rfl,rfl⟩
  have kind : live.kind = .custom "run it" none := by
    obtain rfl := Option.some.inj found
    rfl
  refine ⟨live,found,kind,by decide,(readsBack live found kind).generic ?_⟩
  rw [kind]
  rfl

end ToolCatalog

end Providers
