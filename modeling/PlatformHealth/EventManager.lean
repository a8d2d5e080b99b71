import PlatformHealth.Library.BoundedQueue
import PlatformHealth.Library.Chrono
import PlatformHealth.Types

namespace PlatformHealth

structure EventManager where
  maxSize : Nat := 1024
  queue : List PhmEvent := []

namespace EventManager

def push (m : EventManager) (event : PhmEvent) : Bool × EventManager :=
  let queue := if m.queue.length ≥ m.maxSize then m.queue.tail else m.queue
  (true, { m with queue := queue ++ [event] })

def getEventsLoop (minSeverity : Severity) : List PhmEvent → List PhmEvent → List PhmEvent
  | result, [] => result
  | result, evt :: rest =>
    if evt.severity.value ≥ minSeverity.value then
      getEventsLoop minSeverity (result ++ [evt]) rest
    else getEventsLoop minSeverity result rest

def getEvents (m : EventManager) (minSeverity : Severity := .info) : List PhmEvent :=
  getEventsLoop minSeverity [] m.queue

-- erase leaves the iterator on the element that follows, so the loop does not step past it
def eraseLoop (p : PhmEvent → Bool) :
    List PhmEvent → List PhmEvent → Nat → Nat × List PhmEvent
  | passed, [], count => (count, passed)
  | passed, it :: rest, count =>
    if p it then eraseLoop p passed rest (count + 1)
    else eraseLoop p (passed ++ [it]) rest count

def acknowledge (m : EventManager) (eventIds : List String) : Nat × EventManager :=
  let (count, queue) := eraseLoop (fun it => eventIds.contains it.id) [] m.queue 0
  (count, { m with queue := queue })

def clear (m : EventManager) : EventManager := { m with queue := [] }

def size (m : EventManager) : Nat := m.queue.length

def capacity (m : EventManager) : Nat := m.maxSize

-- the clock counts nanoseconds, the ttl seconds
def cutoff (now ttl : Int) : Int := Chrono.int64 (now - Chrono.nanoseconds 1000000000 ttl)

def purge (m : EventManager) (now ttl : Int) : Nat × EventManager :=
  let (count, queue) := eraseLoop (fun it => it.timestamp < cutoff now ttl) [] m.queue 0
  (count, { m with queue := queue })

inductive Operation where
  | push (event : PhmEvent)
  | acknowledge (eventIds : List String)
  | purge (now ttl : Int)
  | clear

def apply (m : EventManager) : Operation → EventManager
  | .push event => (m.push event).2
  | .acknowledge eventIds => (m.acknowledge eventIds).2
  | .purge now ttl => (m.purge now ttl).2
  | .clear => m.clear

def run (m : EventManager) (ops : List Operation) : EventManager := ops.foldl apply m

def pushed : List Operation → List PhmEvent
  | [] => []
  | .push event :: ops => event :: pushed ops
  | _ :: ops => pushed ops

def Removes (event : PhmEvent) : Operation → Prop
  | .push _ => False
  | .acknowledge eventIds => event.id ∈ eventIds
  | .purge now ttl => event.timestamp < cutoff now ttl
  | .clear => True

section
variable (p : PhmEvent → Bool)

theorem eraseLoop_eq (passed rest : List PhmEvent) (count : Nat) :
    eraseLoop p passed rest count =
      (count + rest.countP p, passed ++ rest.filter (fun it => !p it)) := by
  induction rest generalizing passed count with
  | nil => simp [eraseLoop]
  | cons it rest ih =>
    cases hp : p it with
    | true => simp [eraseLoop, hp, ih]; omega
    | false => simp [eraseLoop, hp, ih]

end

section
variable (m : EventManager)

theorem acknowledge_eq (eventIds : List String) :
    m.acknowledge eventIds =
      (m.queue.countP (fun it => eventIds.contains it.id),
        { m with queue := m.queue.filter (fun it => !eventIds.contains it.id) }) := by
  simp [acknowledge, eraseLoop_eq]

theorem purge_eq (now ttl : Int) :
    m.purge now ttl =
      (m.queue.countP (fun it => it.timestamp < cutoff now ttl),
        { m with queue := m.queue.filter (fun it => !decide (it.timestamp < cutoff now ttl)) }) := by
  simp [purge, eraseLoop_eq]

theorem getEventsLoop_eq (minSeverity : Severity) (result queue : List PhmEvent) :
    getEventsLoop minSeverity result queue =
      result ++ queue.filter (fun evt => minSeverity.value ≤ evt.severity.value) := by
  induction queue generalizing result with
  | nil => simp [getEventsLoop]
  | cons evt queue ih =>
    by_cases h : minSeverity.value ≤ evt.severity.value
    · simp [getEventsLoop, h, ih]
    · simp [getEventsLoop, h, ih]

theorem getEvents_eq (minSeverity : Severity) :
    m.getEvents minSeverity =
      m.queue.filter (fun evt => minSeverity.value ≤ evt.severity.value) := by
  simp [getEvents, getEventsLoop_eq]

end

def effect : Operation → BoundedQueue.Op PhmEvent
  | .push event => .push event
  | .acknowledge eventIds => .remove (fun it => eventIds.contains it.id)
  | .purge now ttl => .remove (fun it => it.timestamp < cutoff now ttl)
  | .clear => .remove (fun _ => true)

section
variable (m : EventManager) (ops : List Operation)

theorem apply_eq (op : Operation) :
    m.apply op = { m with queue := BoundedQueue.apply m.maxSize m.queue (effect op) } := by
  cases op with
  | push event => simp [apply, push, effect, BoundedQueue.apply, BoundedQueue.push]
  | acknowledge eventIds => simp [apply, acknowledge_eq, effect, BoundedQueue.apply]
  | purge now ttl => simp [apply, purge_eq, effect, BoundedQueue.apply]
  | clear => simp [apply, clear, effect, BoundedQueue.apply]

theorem run_eq :
    m.run ops =
      { m with queue := (ops.map effect).foldl (BoundedQueue.apply m.maxSize) m.queue } := by
  induction ops generalizing m with
  | nil => rfl
  | cons op ops ih =>
    have hop := ih (m.apply op)
    simp only [run, List.foldl_cons, List.map_cons] at hop ⊢
    rw [hop, apply_eq]

theorem pushed_effect : BoundedQueue.pushed (ops.map effect) = pushed ops := by
  induction ops with
  | nil => rfl
  | cons op ops ih => cases op <;> simp [effect, pushed, BoundedQueue.pushed, ih]

theorem removes_effect {event : PhmEvent} {op : Operation} :
    BoundedQueue.Removes event (effect op) ↔ Removes event op := by
  cases op <;> simp [effect, Removes, BoundedQueue.Removes]

end

theorem queue_loses_nothing (c : Nat) (hc : 1 ≤ c) (ops : List Operation) :
    let m := run { maxSize := c } ops
    m.queue.Sublist (pushed ops) ∧ m.size ≤ m.capacity ∧ m.capacity = c ∧
    -- every entry of the queue beside the number of the push it came from
    (∃ log : List (Nat × PhmEvent), m.queue = log.map Prod.snd ∧
      log.Pairwise (fun x y => x.1 < y.1) ∧ (∀ x ∈ log, (pushed ops)[x.1]? = some x.2) ∧
      ∀ before event after, ops = before ++ .push event :: after →
        ((pushed before).length, event) ∈ log ∨ (∃ op ∈ after, Removes event op) ∨
          c ≤ (pushed after).length) ∧
    (∀ minSeverity, m.getEvents minSeverity =
      m.queue.filter (fun evt => minSeverity.value ≤ evt.severity.value)) ∧
    (∀ eventIds, (m.acknowledge eventIds).2.queue = m.queue.filter (fun evt => evt.id ∉ eventIds) ∧
      (m.acknowledge eventIds).1 = (m.queue.filter (fun evt => evt.id ∈ eventIds)).length ∧
      ((m.acknowledge eventIds).2.acknowledge eventIds).1 = 0) := by
  intro m
  have hm : m = { maxSize := c, queue := BoundedQueue.run c (ops.map effect) } := run_eq _ ops
  have hsub := BoundedQueue.run_sublist c (ops.map effect)
  rw [pushed_effect] at hsub
  have hlen := BoundedQueue.length_run_le c (ops.map effect) hc
  obtain ⟨log, hkept, hlog⟩ := BoundedQueue.exists_kept c (ops.map effect)
  refine ⟨by simpa only [hm] using hsub, by simpa only [hm, size, capacity] using hlen,
    by simp only [hm, capacity], ⟨log, by simpa only [hm] using hlog, hkept.increasing, ?_, ?_⟩,
    fun minSeverity => getEvents_eq m minSeverity, ?_⟩
  · intro x hx
    simpa only [pushed_effect] using hkept.recorded x hx
  · intro before event after heq
    have heq : ops.map effect =
        before.map effect ++ .push event :: after.map effect := by
      simp [heq, effect]
    rcases hkept.absent _ _ _ heq with hmem | ⟨entry, hentry, hrem⟩ | hlate
    · exact .inl (by simpa only [pushed_effect] using hmem)
    · obtain ⟨op, hop, rfl⟩ := List.mem_map.mp hentry
      exact .inr (.inl ⟨op, hop, removes_effect.mp hrem⟩)
    · exact .inr (.inr (by simpa only [pushed_effect] using hlate))
  · intro eventIds
    simp only [acknowledge_eq]
    refine ⟨?_, ?_, ?_⟩
    · simp
    · simp [List.countP_eq_length_filter]
    · simp [List.countP_filter]

def numbered (id : String) : PhmEvent := { id := id, severity := .error }

theorem queue_loses_nothing_of_two : 1 ≤ 2 ∧
    (run { maxSize := 2 } [.push (numbered "a"), .push (numbered "b"), .acknowledge ["b"],
      .push (numbered "c"), .push (numbered "d")]).size ≤ 2 := by
  have h := (queue_loses_nothing 2 (by decide) [.push (numbered "a"), .push (numbered "b"),
    .acknowledge ["b"], .push (numbered "c"), .push (numbered "d")])
  exact ⟨by decide, h.2.1.trans_eq h.2.2.1⟩

inductive DequeFault where
  | popFrontEmpty
deriving DecidableEq, Repr

-- pop_front of an empty deque is undefined
def popFront : List PhmEvent → Except DequeFault (List PhmEvent)
  | [] => .error .popFrontEmpty
  | _ :: rest => .ok rest

def pushOnDeque (m : EventManager) (event : PhmEvent) : Except DequeFault (Bool × EventManager) := do
  let queue ← if m.queue.length ≥ m.maxSize then popFront m.queue else pure m.queue
  return (true, { m with queue := queue ++ [event] })

def perform (m : EventManager) : Operation → Except DequeFault EventManager
  | .push event => do
    let (_, m) ← m.pushOnDeque event
    return m
  | .acknowledge eventIds => return (m.acknowledge eventIds).2
  | .purge now ttl => return (m.purge now ttl).2
  | .clear => return m.clear

def Bounded (c : Nat) (ops : List Operation) : Prop :=
  ∀ pre, pre <+: ops → ∃ m, pre.foldlM perform { maxSize := c } = .ok m ∧ m.size ≤ m.capacity

section
variable {m : EventManager} {ops : List Operation}

theorem pushOnDeque_of_nonempty (h : m.maxSize ≤ m.queue.length → m.queue ≠ []) (event : PhmEvent) :
    m.pushOnDeque event = .ok (m.push event) := by
  unfold pushOnDeque push
  split
  · next hfull =>
    cases hq : m.queue with
    | nil => exact absurd hq (h hfull)
    | cons first rest => rfl
  · rfl

theorem perform_of_positive (h : m.maxSize ≠ 0) (op : Operation) : m.perform op = .ok (m.apply op) := by
  cases op with
  | push event =>
    rw [perform, pushOnDeque_of_nonempty]
    · rfl
    · rintro hfull hq
      rw [hq, List.length_nil] at hfull
      omega
  | _ => rfl

theorem perform_of_quiet {op : Operation} (h : pushed [op] = []) : m.perform op = .ok (m.apply op) := by
  cases op with
  | push event => cases h
  | _ => rfl

theorem pushed_cons (op : Operation) (ops : List Operation) : pushed (op :: ops) = pushed [op] ++ pushed ops := by
  cases op <;> rfl

theorem pushed_eq_nil_before {pre : List Operation} (h : pre <+: ops) (hops : pushed ops = []) :
    pushed pre = [] := by
  obtain ⟨post, rfl⟩ := h
  induction pre with
  | nil => rfl
  | cons op pre ih =>
    rw [List.cons_append, pushed_cons, List.append_eq_nil_iff] at hops
    rw [pushed_cons, hops.1, ih hops.2]
    rfl

theorem maxSize_apply (m : EventManager) (op : Operation) : (m.apply op).maxSize = m.maxSize := by
  rw [apply_eq]

theorem foldlM_perform (h : m.maxSize ≠ 0 ∨ pushed ops = []) :
    ops.foldlM perform m = .ok (m.run ops) := by
  induction ops generalizing m with
  | nil => rfl
  | cons op ops ih =>
    have hop : m.perform op = .ok (m.apply op) := by
      rcases h with hpos | hquiet
      · exact perform_of_positive hpos op
      · rw [pushed_cons, List.append_eq_nil_iff] at hquiet
        exact perform_of_quiet hquiet.1
    have hrest : (m.apply op).maxSize ≠ 0 ∨ pushed ops = [] := by
      rcases h with hpos | hquiet
      · exact .inl (by rwa [maxSize_apply])
      · rw [pushed_cons, List.append_eq_nil_iff] at hquiet
        exact .inr hquiet.2
    rw [List.foldlM_cons, hop]
    exact ih hrest

theorem size_run_le {c : Nat} (h : c ≠ 0 ∨ pushed ops = []) :
    (run { maxSize := c } ops).size ≤ c := by
  have hrun : (run { maxSize := c } ops).queue = BoundedQueue.run c (ops.map effect) :=
    congrArg queue (run_eq _ ops)
  rw [size, hrun]
  rcases h with hpos | hquiet
  · exact BoundedQueue.length_run_le c _ (Nat.pos_of_ne_zero hpos)
  · have hsub := (BoundedQueue.run_sublist c (ops.map effect)).length_le
    rw [pushed_effect, hquiet, List.length_nil] at hsub
    omega

theorem foldlM_perform_push {before : List Operation} (h : pushed before = []) (event : PhmEvent) :
    (before ++ [Operation.push event]).foldlM perform { maxSize := 0 } = .error .popFrontEmpty := by
  have hlen : (run { maxSize := 0 } before).size ≤ 0 := size_run_le (.inr h)
  have hnil : (run { maxSize := 0 } before).queue = [] :=
    List.length_eq_zero_iff.mp (Nat.le_zero.mp hlen)
  have hfull : (run { maxSize := 0 } before).maxSize ≤ (run { maxSize := 0 } before).queue.length := by
    rw [run_eq]
    exact Nat.zero_le _
  rw [List.foldlM_append, foldlM_perform (.inr h)]
  change perform _ (.push event) >>= pure = _
  rw [bind_pure, perform, pushOnDeque, if_pos hfull, hnil]
  rfl

end

theorem exists_first_push {ops : List Operation} (h : pushed ops ≠ []) :
    ∃ before event after, ops = before ++ .push event :: after ∧ pushed before = [] := by
  induction ops with
  | nil => exact absurd rfl h
  | cons op ops ih =>
    cases op with
    | push event => exact ⟨[], event, ops, rfl, rfl⟩
    | _ =>
      obtain ⟨before, event, after, rfl, hbefore⟩ := ih h
      exact ⟨_ :: before, event, after, rfl, hbefore⟩

theorem bounded_iff (c : Nat) (ops : List Operation) : Bounded c ops ↔ c ≠ 0 ∨ pushed ops = [] := by
  constructor
  · intro h
    by_contra hneg
    obtain ⟨hzero, hpush⟩ := not_or.mp hneg
    obtain rfl : c = 0 := not_not.mp hzero
    obtain ⟨before, event, after, rfl, hbefore⟩ := exists_first_push hpush
    obtain ⟨m, hm, -⟩ := h (before ++ [.push event]) ⟨after, by simp⟩
    rw [foldlM_perform_push hbefore] at hm
    cases hm
  · intro h pre hpre
    have hquiet : c ≠ 0 ∨ pushed pre = [] := h.imp_right (pushed_eq_nil_before hpre)
    refine ⟨run { maxSize := c } pre, foldlM_perform hquiet, ?_⟩
    have hcap : (run { maxSize := c } pre).capacity = c := by rw [run_eq]; rfl
    rw [hcap]
    exact size_run_le hquiet

theorem push_on_no_capacity :
    [Operation.push (numbered "a")].foldlM perform { maxSize := 0 } = .error .popFrontEmpty ∧
      ¬ Bounded 0 [.push (numbered "a")] := by
  refine ⟨rfl, fun h => ?_⟩
  obtain ⟨m, hm, -⟩ := h [.push (numbered "a")] (List.prefix_refl _)
  cases hm

end EventManager

end PlatformHealth
