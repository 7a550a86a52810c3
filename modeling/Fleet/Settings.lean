import Fleet.Failure
import Fleet.Text.Blank

/-!
# Settings

What a control plane is set up with. Settings are read from variables that are looked up by name: a
value counts without the blanks around it, a blank value counts as missing, and what is missing keeps
its default. `Settings.toVariables` writes them so that reading gives them back.
-/

namespace Fleet

/-- The settings of a control plane; a limit of zero instances is no limit. -/
structure Settings where
  nodeId : String := "node-1"
  defaultProvider : String := "local"
  maxInstances : UInt64 := 0
  hookTimeoutMs : UInt64 := 5000
  auditEnabled : Bool := true
  metricsEnabled : Bool := true
  deriving DecidableEq, Repr, Inhabited

namespace Settings

def nodeIdKey : String := "CP_NODE_ID"
def defaultProviderKey : String := "CP_DEFAULT_PROVIDER"
def maxInstancesKey : String := "CP_MAX_INSTANCES"
def hookTimeoutKey : String := "CP_HOOK_TIMEOUT_MS"
def auditKey : String := "CP_AUDIT_ENABLED"
def metricsKey : String := "CP_METRICS_ENABLED"

/-- The value of a variable without the blanks around it, if anything is left. -/
def value? (lookup : String → Option String) (key : String) : Option String :=
  (lookup key).bind fun raw => if Text.trim raw = "" then none else some (Text.trim raw)

/-- The number of a text: decimal digits, perhaps after a plus sign, for a value that fits. -/
def number? (text : String) : Option UInt64 :=
  let ds := match text.toList with
    | '+' :: ds => ds
    | ds => ds
  let n := Nat.ofDigitChars 10 ds 0
  if ds ≠ [] ∧ ds.all Char.isDigit ∧ n < UInt64.size then some (.ofNat n) else none

def yesWords : List String := ["1", "true", "yes", "on"]

def noWords : List String := ["0", "false", "no", "off"]

/-- The truth value of a word in any mix of ASCII cases. -/
def boolean? (text : String) : Option Bool :=
  let word := String.ofList (text.toList.map Char.toLower)
  if yesWords.contains word then some true
  else if noWords.contains word then some false
  else none

/-- A setting that is read by `read?` when it is there. -/
def optional {α : Type} (lookup : String → Option String) (key : String) (default : α)
    (read? : String → Option α) (refuse : String → String → Invalid) : Except Failure α :=
  match value? lookup key with
  | none => .ok default
  | some text =>
    match read? text with
    | some a => .ok a
    | none => .error (.invalid (refuse key text))

/-- The settings that the variables give; the first variable that is wrong is reported. -/
def read (lookup : String → Option String) : Except Failure Settings := do
  let defaults : Settings := {}
  let nodeId := (value? lookup nodeIdKey).getD defaults.nodeId
  let defaultProvider := (value? lookup defaultProviderKey).getD defaults.defaultProvider
  let maxInstances ← optional lookup maxInstancesKey defaults.maxInstances number? .notNumber
  let hookTimeoutMs ← optional lookup hookTimeoutKey defaults.hookTimeoutMs number? .notNumber
  if hookTimeoutMs = 0 then throw (.invalid (.notPositive hookTimeoutKey))
  let auditEnabled ← optional lookup auditKey defaults.auditEnabled boolean? .notBoolean
  let metricsEnabled ← optional lookup metricsKey defaults.metricsEnabled boolean? .notBoolean
  return { nodeId, defaultProvider, maxInstances, hookTimeoutMs, auditEnabled, metricsEnabled }

/-- The variables that settings are written as. -/
def toVariables (s : Settings) : List (String × String) :=
  [(nodeIdKey, s.nodeId), (defaultProviderKey, s.defaultProvider),
   (maxInstancesKey, toString s.maxInstances.toNat),
   (hookTimeoutKey, toString s.hookTimeoutMs.toNat),
   (auditKey, toString s.auditEnabled), (metricsKey, toString s.metricsEnabled)]

end Settings

end Fleet
