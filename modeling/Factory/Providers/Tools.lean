import Factory.Library.Assoc
import Factory.Library.Json
import Factory.Library.Result
import Factory.Library.Text

namespace Providers

open Json (Value)
open Result

inductive TranslationError where
  | invalidRequest (detail : String)
  | unsupportedItem (detail : String)
  | unknownTool (name : String)
  | invalidToolArguments (tool detail : String)
  deriving DecidableEq, Repr

def TranslationError.message : TranslationError → String
  | .invalidRequest detail => "invalid Responses request: " ++ detail
  | .unsupportedItem detail => "unsupported Responses item: " ++ detail
  | .unknownTool name => "provider returned unknown tool " ++ name
  | .invalidToolArguments tool detail =>
    "provider returned invalid arguments for tool " ++ tool ++ ": " ++ detail

structure ParsedPatch where
  patch : String
  hunks : List Value

structure Externals where
  printJson : Value → String
  parseJson : String → Except String Value
  parsePatch : String → Except String ParsedPatch

def applyPatchToolName : String := "apply_patch"

inductive ToolKind where
  | function (name : String) (nameSpace : Option String)
  | custom (name : String) (nameSpace : Option String)
  deriving DecidableEq, Repr

namespace ToolKind

def name : ToolKind → String
  | .function name _ | .custom name _ => name

def nameSpace : ToolKind → Option String
  | .function _ nameSpace | .custom _ nameSpace => nameSpace

def isApplyPatch : ToolKind → Bool
  | .custom name none => name = applyPatchToolName
  | _ => false

end ToolKind

structure ToolBinding where
  wireName : String
  kind : ToolKind
  description : String
  inputSchema : Value
  deriving DecidableEq

structure ToolCatalog where
  bindings : List ToolBinding

def invalidApplyPatchArguments (detail : String) : TranslationError :=
  .invalidToolArguments applyPatchToolName detail

def looksLikeRawPatch (value : String) : Bool :=
  (Text.stripPrefix "*** Begin Patch" value).isSome || (Text.stripPrefix "<<EOF" value).isSome ||
    (Text.stripPrefix "<<'EOF'" value).isSome || (Text.stripPrefix "<<\"EOF\"" value).isSome

def applyPatchCandidate (env : Externals) (trimmed : String) : Except TranslationError String :=
  match env.parseJson trimmed with
  | .ok (.string patch) => .ok patch
  | .ok (.object [(field, value)]) =>
    if field = "patch" ∨ field = "input" then
      okOr value.asStr
        (invalidApplyPatchArguments ("field `" ++ field ++ "` must be a string"))
    else .error (invalidApplyPatchArguments
      ("unsupported field `" ++ field ++ "`; expected `patch` or legacy `input`"))
  | .ok (.object _) => .error (invalidApplyPatchArguments
      "expected exactly one string field named `patch` (or legacy `input`)")
  | .ok _ => .error (invalidApplyPatchArguments
      "expected raw patch text, a JSON string, or an object with one `patch` field")
  | .error error =>
    if looksLikeRawPatch trimmed then .ok trimmed
    else .error (invalidApplyPatchArguments
      ("arguments are neither raw patch text nor supported JSON: " ++ error))

def normalizeApplyPatch (env : Externals) (arguments : String) :
    Except TranslationError String := do
  let candidate ← applyPatchCandidate env (Text.trim arguments)
  match env.parsePatch candidate with
  | .error error => .error (invalidApplyPatchArguments error)
  | .ok parsed =>
    if parsed.hunks = [] then .error (invalidApplyPatchArguments "patch contains no file hunks")
    else .ok parsed.patch

def genericCustomInput (env : Externals) (arguments : String) : String :=
  (((env.parseJson arguments).toOption.bind (Value.text "input"))).getD arguments

def ToolBinding.normalizeCustomInput (env : Externals) (binding : ToolBinding)
    (arguments : String) : Except TranslationError String :=
  if binding.kind.isApplyPatch then normalizeApplyPatch env arguments
  else .ok (genericCustomInput env arguments)

def requiredString (value : Value) (field : String) : Except TranslationError String :=
  okOr ((value.text field).filter (· ≠ "")) (.invalidRequest ("missing " ++ field))

def isWireCharacter (c : Char) : Bool := c.isAlphanum || c = '_' || c = '-'

def sanitizedWireName (nameSpace : Option String) (name : String) : String :=
  let candidate := match nameSpace with
    | some space => space ++ "__" ++ name
    | none => name
  String.ofList (candidate.toList.map (fun c => if isWireCharacter c then c else '_'))

def pushFunction (bindings : List ToolBinding) (tool : Value) (nameSpace : Option String) :
    Except TranslationError (List ToolBinding) := do
  ensure (tool.text "type" = some "function") (.unsupportedItem "non-function namespace member")
  let name ← requiredString tool "name"
  pure (bindings ++ [⟨"", .function name nameSpace, (tool.text "description").getD "",
    (tool.get "parameters").getD
      (.object [("type", .string "object"), ("properties", .object [])])⟩])

def describeNested (description : String) (nested : Value) : Value :=
  if (nested.text "description").getD "" = "" then nested.set "description" (.string description)
  else nested

def pushNamespace (bindings : List ToolBinding) (tool : Value) :
    Except TranslationError (List ToolBinding) := do
  let space ← requiredString tool "name"
  let nested ← okOr ((tool.get "tools").bind Value.asArray)
    (.invalidRequest ("namespace " ++ space ++ " is missing tools"))
  nested.foldlM (fun bindings inner =>
    pushFunction bindings (describeNested ((tool.text "description").getD "") inner) (some space))
    bindings

def freeformSchema : Value :=
  .object [("type", .string "object"),
    ("properties", .object [("input", .object [("type", .string "string"),
      ("description", .string "Raw freeform input for this tool")])]),
    ("required", .array [.string "input"]), ("additionalProperties", .bool false)]

def pushCustom (bindings : List ToolBinding) (tool : Value) :
    Except TranslationError (List ToolBinding) := do
  let name ← requiredString tool "name"
  pure (bindings ++ [⟨"", .custom name none, (tool.text "description").getD "", freeformSchema⟩])

def pushTool (bindings : List ToolBinding) (tool : Value) :
    Except TranslationError (List ToolBinding) :=
  match (tool.text "type").getD "" with
  | "function" => pushFunction bindings tool none
  | "namespace" => pushNamespace bindings tool
  | "custom" => pushCustom bindings tool
  | "web_search" => .ok bindings
  | "tool_search" => .error (.unsupportedItem "tool_search")
  | other => .error (.unsupportedItem ("tool type " ++ other))

def originalOwners (bindings : List ToolBinding) : List (String × Option Nat) :=
  Assoc.gather (fun entry => entry.1.kind.name)
    (fun entry owner => match owner with
      | none => some entry.2
      | some _ => none)
    bindings.zipIdx []

def conflictsWithAlias (owners : List (String × Option Nat)) (index : Nat) (candidate : String) :
    Bool :=
  (Assoc.get candidate owners).any (fun owner => owner ≠ some index)

def syntheticName (index : Nat) : String := "factory_tool_" ++ toString index

def nextSynthetic (index : Nat) : Option Nat :=
  if index < 2147483647 then some (index + 1) else none

def findSynthetic (taken : String → Bool) : Nat → Nat → Option (String × Nat)
  | 0, index => (nextSynthetic index).map (fun next => (syntheticName index, next))
  | fuel + 1, index =>
    (nextSynthetic index).bind fun next =>
      if taken (syntheticName index) then findSynthetic taken fuel next
      else some (syntheticName index, next)

def wireNameTaken (owners : List (String × Option Nat)) (used : List String) (index : Nat)
    (candidate : String) : Bool :=
  used.contains candidate || conflictsWithAlias owners index candidate

def wireNameFor (owners : List (String × Option Nat)) (used : List String) (synthetic index : Nat)
    (kind : ToolKind) : Option (String × Nat) :=
  let sanitized := sanitizedWireName kind.nameSpace kind.name
  if sanitized = "" ∨ 64 < sanitized.length ∨ wireNameTaken owners used index sanitized then
    findSynthetic (wireNameTaken owners used index) (used.length + owners.length) synthetic
  else some (sanitized, synthetic)

def assignFrom (owners : List (String × Option Nat)) :
    List String → Nat → Nat → List ToolBinding → Option (List ToolBinding)
  | _, _, _, [] => some []
  | used, synthetic, index, binding :: rest => do
      let (wireName, synthetic) ← wireNameFor owners used synthetic index binding.kind
      let named ← assignFrom owners (wireName :: used) synthetic (index + 1) rest
      pure ({ binding with wireName := wireName } :: named)

def assignWireNames (bindings : List ToolBinding) : Option (List ToolBinding) :=
  assignFrom (originalOwners bindings) [] 0 0 bindings

namespace ToolCatalog

def fromRequest (request : Value) : Option (Except TranslationError ToolCatalog) :=
  match (((request.get "tools").bind Value.asArray).getD []).foldlM pushTool [] with
  | .error error => some (.error error)
  | .ok bindings => (assignWireNames bindings).map (fun named => .ok ⟨named⟩)

def byWireName (catalog : ToolCatalog) (name : String) : Option ToolBinding :=
  match catalog.bindings.filter
      (fun binding => binding.wireName = name || binding.kind.name = name) with
  | [binding] => some binding
  | _ => none

def wireName (catalog : ToolCatalog) (nameSpace : Option String) (name : String) : Option String :=
  (catalog.bindings.find?
    (fun binding => binding.kind.name = name && binding.kind.nameSpace = nameSpace)).map
    ToolBinding.wireName

def historicalWireName (catalog : ToolCatalog) (nameSpace : Option String) (name : String) :
    String :=
  match catalog.wireName nameSpace name with
  | some wireName => wireName
  | none =>
    let wireName := sanitizedWireName nameSpace name
    if wireName = "" then "factory_historical_tool"
    else String.ofList (wireName.toList.take 64)

def chatCustomArguments (env : Externals) (nameSpace : Option String) (name input : String) :
    String :=
  if nameSpace = none ∧ name = applyPatchToolName then
    env.printJson (.object [("patch", .string input)])
  else env.printJson (.object [("input", .string input)])

end ToolCatalog

end Providers
