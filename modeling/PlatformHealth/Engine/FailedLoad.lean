import PlatformHealth.Config.EntryPoints
import PlatformHealth.Engine.Steps
import PlatformHealth.Library.Throwing

namespace PlatformHealth

open LockDiscipline

open LockDiscipline.Throwing

def CppException.isStdException : CppException → Bool
  | .runtimeError _ | .readError _ _ | .typeError _ | .invalidIterator _ => true

-- the state beside the engine is the parser's s_last_error
abbrev LoadM (μ : Type) := Throwing String (PhmEngine μ) CppException CheckFault

abbrev Files := String → Option (List UInt8)

inductive LoadCall where
  | loadConfiguration (path : String)
  | reloadConfiguration

namespace Files

variable {μ : Type} (files : Files) (rt : CppRuntime)

def parseFile (path lastError : String) : Except CppException ParseResult × String :=
  (ConfigParser.parseFile rt path (files path)).run.run lastError

def tryLoad (path : String) : LoadM μ Bool := do
  let result ← beside (parseFile files rt path)
  locked (modify fun e => { e with config := result.global })
  locked (PhmEngine.addAll result.entities)
  locked (modify fun e => { e with configPath := path })
  return true

def loadConfiguration (path : String) : LoadM μ Bool :=
  tryCatch (tryLoad files rt path) fun exception =>
    if exception.isStdException then return false else throw exception

def reloadConfiguration : LoadM μ Bool := do
  let path := (← locked (get : EngineM μ (PhmEngine μ))).configPath
  if path = "" then
    return false
  else
    loadConfiguration files rt path

def perform : LoadCall → LoadM μ Bool
  | .loadConfiguration path => loadConfiguration files rt path
  | .reloadConfiguration => reloadConfiguration files rt

section
variable {files rt} {path lastError : String} {e : PhmEngine μ}
  {Q : Bool → String → PhmEngine μ → Prop} {E : CppException → String → PhmEngine μ → Prop}
  {F : Fault CheckFault → Prop}

theorem settles_loadConfiguration :
    Settles (loadConfiguration files rt path) lastError e Q E F ↔
      Ends (PhmEngine.loadConfiguration path
          ((parseFile files rt path lastError).1.mapError CppException.what)) e
        (fun loaded f => Q loaded (parseFile files rt path lastError).2 f) F := by
  rw [loadConfiguration, settles_tryCatch, tryLoad, settles_bind]
  cases hparse : parseFile files rt path lastError with
  | mk parsed after =>
    cases parsed with
    | error exception =>
      rw [settles_beside_error hparse]
      have hstd : exception.isStdException = true := by cases exception <;> rfl
      rw [hstd]
      rfl
    | ok result =>
      rw [settles_beside_ok hparse]
      simp only [settles_bind, settles_locked, settles_pure, PhmEngine.loadConfiguration,
        Except.mapError, ends_bind, ends_modify, ends_pure]

theorem ends_addAll (cfgs : List SEConfig) :
    Ends (PhmEngine.addAll cfgs) e (fun _ _ => True)
      (fun fault => fault = .relock ∧ e.mutex = true) := by
  cases hmutex : e.mutex with
  | false =>
    unfold Ends
    rw [PhmEngine.addAll_eq hmutex]
    trivial
  | true =>
    cases cfgs with
    | nil => trivial
    | cons cfg rest =>
      rw [PhmEngine.addAll, ends_bind, PhmEngine.addSupervisedEntity, ends_withLock_of_held hmutex]
      exact ⟨rfl, rfl⟩

theorem ends_parsed (result : ParseResult) :
    Ends (PhmEngine.loadConfiguration path (.ok result)) e (fun loaded _ => loaded = true)
      (fun fault => fault = .relock ∧ e.mutex = true) := by
  simp only [PhmEngine.loadConfiguration, ends_bind, ends_modify, ends_pure]
  exact ends_addAll result.entities

theorem settles_failed_load :
    Settles (loadConfiguration files rt path) lastError e
      (fun loaded _ f => loaded = false → f = e) (fun _ _ _ => False)
      (fun fault => fault = .relock ∧ e.mutex = true) := by
  rw [settles_loadConfiguration]
  cases (parseFile files rt path lastError).1 with
  | error exception =>
    intro _
    rfl
  | ok result =>
    refine (ends_parsed result).mono ?_ (fun _ h => h)
    rintro loaded f rfl
    exact nofun

end

theorem failed_load_changes_nothing (files : Files) (rt : CppRuntime) (call : LoadCall)
    (lastError : String) (e : PhmEngine μ) :
    Settles (perform files rt call) lastError e
      (fun loaded _ f => loaded = false → f = e) (fun _ _ _ => False)
      (fun fault => fault = .relock ∧ e.mutex = true) := by
  cases call with
  | loadConfiguration path => exact settles_failed_load
  | reloadConfiguration =>
    rw [perform, reloadConfiguration, settles_bind, settles_locked, ends_get]
    by_cases hpath : e.configPath = ""
    · simp [hpath]
    · simp only [hpath, if_false]
      exact settles_failed_load

end Files

end PlatformHealth
