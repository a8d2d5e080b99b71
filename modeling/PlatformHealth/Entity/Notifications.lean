import PlatformHealth.Entity.Replay

namespace PlatformHealth

structure Notification where
  name : String
  old : SeState
  new : SeState
deriving DecidableEq, Repr

namespace Notification

def Path (name : String) : SeState → List Notification → SeState → Prop
  | s, [], t => s = t
  | s, n :: ns, t => n.name = name ∧ n.old = s ∧ n.new ≠ s ∧ Path name n.new ns t

section
variable {name : String} {ms ns : List Notification} {r s t : SeState}

theorem Path.append (hms : Path name r ms s) (hns : Path name s ns t) : Path name r (ms ++ ns) t := by
  induction ms generalizing r with
  | nil =>
    obtain rfl : r = s := hms
    exact hns
  | cons m ms ih => exact ⟨hms.1, hms.2.1, hms.2.2.1, ih hms.2.2.2⟩

theorem Path.unique (hs : Path name r ns s) (ht : Path name r ns t) : s = t := by
  induction ns generalizing r with
  | nil => exact (show r = s from hs).symm.trans ht
  | cons n ns ih => exact ih hs.2.2.2 ht.2.2.2

end

end Notification

namespace SupervisedEntity

variable {μ ε : Type} [IMonitor μ ε]

def recorder : StateChangeCallback (StateM (List Notification)) :=
  fun name old new => modify (· ++ [⟨name, old, new⟩])

def notified (name : String) (cs : List StateChange) : List Notification :=
  cs.filterMap fun c =>
    match c.cause with
    | .reset => none
    | _ => some ⟨name, c.old, c.new⟩

theorem replay_recorder (name : String) (cs : List StateChange) (log : List Notification) :
    (replay recorder name cs).run log = ((), log ++ notified name cs) := by
  induction cs generalizing log with
  | nil => simp [replay, notified]; rfl
  | cons c cs ih =>
    cases hcause : c.cause with
    | reset => simpa [replay, notified, hcause] using ih log
    | started =>
      have hrest := ih (log ++ [⟨name, c.old, c.new⟩])
      simpa [replay, notified, hcause, recorder] using hrest
    | event event =>
      have hrest := ih (log ++ [⟨name, c.old, c.new⟩])
      simpa [replay, notified, hcause, recorder] using hrest

theorem perform_recorder {se : SupervisedEntity μ} (hcb : se.stateCb = true) (op : EntityOp μ ε)
    (log : List Notification) :
    (se.perform recorder op).run log =
      (se.apply op, log ++ notified se.config.name (changes se.core (se.actions op))) := by
  rw [perform_eq, tell, if_pos hcb]
  simp [replay_recorder]
  rfl

theorem path_notified (se : SupervisedEntity μ) {as : List Action} (h : .reset ∉ as) :
    Notification.Path se.config.name se.currentState (notified se.config.name (changes se as))
      (Runs.run act se as).currentState := by
  induction as generalizing se with
  | nil => rfl
  | cons a as ih =>
    obtain ⟨hne, hrest⟩ : .reset ≠ a ∧ .reset ∉ as := by simpa using h
    have htail := ih (se.act a) hrest
    rw [config_act] at htail
    simp only [changes, Runs.run_cons]
    split
    · next heq => rwa [heq] at htail
    · next hchange =>
      cases a with
      | started => exact ⟨rfl, rfl, hchange, htail⟩
      | event event => exact ⟨rfl, rfl, hchange, htail⟩
      | reset => exact absurd rfl hne

theorem reset_notMem_actions {op : EntityOp μ ε} (h : op ≠ .reset) (se : SupervisedEntity μ) :
    .reset ∉ se.actions op := by
  cases op with
  | start readings =>
    simp only [actions]
    split <;> simp
  | reset => exact absurd rfl h
  | _ => simp [actions]

end SupervisedEntity

structure Observed (μ : Type) where
  entity : SupervisedEntity μ
  log : List Notification

namespace Observed

open SupervisedEntity

variable {μ ε : Type} [IMonitor μ ε]

def perform (o : Observed μ) (op : EntityOp μ ε) : Observed μ :=
  let out := (o.entity.perform recorder op).run o.log
  ⟨out.1, out.2⟩

def Exact (o : Observed μ) : Prop :=
  Notification.Path o.entity.config.name .init o.log o.entity.currentState

def Unseen (o : Observed μ) (op : EntityOp μ ε) : Prop :=
  op = .reset → o.entity.currentState = .init

section
variable {o : Observed μ} (op : EntityOp μ ε)

theorem entity_perform (h : o.entity.stateCb = true) :
    (o.perform op).entity = o.entity.apply op ∧
      (o.perform op).log =
        o.log ++ notified o.entity.config.name (changes o.entity.core (o.entity.actions op)) := by
  simp only [perform, perform_recorder h, and_self]

theorem exact_perform_iff (hcb : o.entity.stateCb = true) (h : o.Exact) :
    (o.perform op).Exact ↔ o.Unseen op := by
  obtain ⟨hentity, hlog⟩ := entity_perform op hcb
  have hcfg : (o.entity.apply op).config = o.entity.config := config_run o.entity [op]
  unfold Exact at h ⊢
  rw [hentity, hlog, hcfg]
  by_cases hop : op = .reset
  · subst hop
    have hquiet : notified o.entity.config.name (changes o.entity.core [.reset]) = [] := by
      simp only [changes]
      split <;> simp [notified]
    simp only [actions, hquiet, List.append_nil]
    constructor
    · intro hreset _
      exact h.unique hreset
    · intro hinit
      rwa [hinit rfl] at h
  · refine iff_of_true (h.append ?_) (fun heq => absurd heq hop)
    have hpath := path_notified o.entity.core (reset_notMem_actions hop o.entity)
    rw [← core_apply] at hpath
    exact hpath

end

theorem notifications_exact_iff (cfg : SEConfig) (ops : List (EntityOp μ ε)) :
    Runs.Always perform Exact (⟨{ new cfg with stateCb := true }, []⟩ : Observed μ) ops ↔
      Runs.Each perform Unseen (⟨{ new cfg with stateCb := true }, []⟩ : Observed μ) ops := by
  refine Runs.always_iff_each (I := fun o => o.entity.stateCb = true)
    (fun o op hcb h => exact_perform_iff op hcb h) ?_ rfl rfl
  intro o op hcb
  rw [(entity_perform op hcb).1]
  exact (stateCb_apply o.entity op).trans hcb

theorem reset_unseen :
    let o : Observed ReportingMonitor := Runs.run perform ⟨{ new {} with stateCb := true }, []⟩
      [.start fun _ => {}, .reset]
    o.log = [⟨"", .init, .running⟩] ∧ o.entity.currentState = .init ∧ ¬ o.Exact := by
  refine ⟨by decide, by decide, ?_⟩
  intro h
  have hend : SeState.running = .init := h.2.2.2
  cases hend

end Observed

end PlatformHealth
