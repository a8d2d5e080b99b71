import PlatformHealth.Library.Json.Schema

namespace PlatformHealth

open Json (Schema)

open Json.Schema

def isIdentifierStart (c : Char) : Bool := c.isAlpha || c = '_'

def entityNamePattern (s : String) : Prop :=
  match s.toList with
  | [] => False
  | c :: cs => isIdentifierStart c = true ∧ ∀ d ∈ cs, (isIdentifierStart d || d.isDigit) = true

def monitorTypes : List String :=
  ["process_lifecycle", "resource", "deadlock", "alive", "custom"]

def atLeast (n : Int) : Schema := integer (n ≤ ·)

def percentage : Schema := number fun q => 0 ≤ q ∧ q ≤ 100

def anyString : Schema := string fun _ => True

def monitorSchema : Schema :=
  object
    [("type", string (· ∈ monitorTypes)), ("enabled", boolean), ("interval_ms", atLeast 50),
      ("timeout_ms", atLeast 100), ("debounce_count", atLeast 1),
      ("warn_threshold", number fun _ => True), ("error_threshold", number fun _ => True),
      ("warn_threshold_cpu", percentage), ("error_threshold_cpu", percentage),
      ("warn_threshold_memory_mb", atLeast 0), ("error_threshold_memory_mb", atLeast 0),
      ("params", object [] [] anyString)]
    ["type"] never

def entitySchema : Schema :=
  object
    [("name", string entityNamePattern), ("description", anyString),
      ("alive_timeout_ms", atLeast 100), ("auto_restart", boolean),
      ("max_restart_count", atLeast 0), ("restart_delay_s", atLeast 0), ("enabled", boolean),
      ("dependencies", fun j => array anyString j ∧ uniqueItems j),
      ("monitors", array monitorSchema)]
    ["name"] never

def globalSchema : Schema :=
  object
    [("tick_interval_ms", integer fun n => 10 ≤ n ∧ n ≤ 10000), ("log_dir", anyString),
      ("enable_auto_recovery", boolean),
      ("event_queue_size", integer fun n => 64 ≤ n ∧ n ≤ 65536)]
    [] never

def configSchema : Schema :=
  object [("global", globalSchema), ("supervised_entities", array entitySchema)]
    ["supervised_entities"] never

end PlatformHealth
