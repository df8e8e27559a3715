import DistributedAi.Sessions

/-! The two mutexes and the order the code takes them in: `agents_mutex` before `tasks_mutex`,
and nothing while holding `tasks_mutex`. However the threads interleave, the order admits no
deadlock. -/
namespace DistributedAi

inductive Mutex
  | agents | tasks
  deriving DecidableEq

inductive LockOp
  | lock (m : Mutex)
  | unlock (m : Mutex)
  deriving DecidableEq

/-- The lock pattern of one locked region of the code. -/
inductive Region
  /-- `agents_mutex` alone: a coordination round's heartbeat loop, `handle_message` for every
  type but the two task messages, the agent lines of `get_status`, the shutdown loop of
  `cleanup`, and `submit` when it finds no agent. -/
  | agents
  /-- `agents_mutex`, then `tasks_mutex` inside it: `handle_message` for a TaskRequest or a
  TaskResponse, and `submit`'s locked section once it found an agent. -/
  | agentsTasks
  /-- `tasks_mutex` alone: one check of `submit`'s wait loop, the task lines of `get_status`. -/
  | tasks
  deriving DecidableEq

/-- The lock operations of a region, in the order the code makes them. -/
def Region.ops : Region → List LockOp
  | .agents => [.lock .agents, .unlock .agents]
  | .agentsTasks => [.lock .agents, .lock .tasks, .unlock .tasks, .unlock .agents]
  | .tasks => [.lock .tasks, .unlock .tasks]

/-! ## The regions each function enters -/

/-- `handle_message` holds `agents_mutex` throughout, and `tasks_mutex` inside it for the two
task messages. -/
def handleMessageRegions (msg : AiMessage) : List Region :=
  match MessageType.ofInt? msg.type with
  | some .taskRequest | some .taskResponse => [.agentsTasks]
  | _ => [.agents]

/-- The regions a step of the process model enters: the listener's `handle_message` for a
handled datagram (none for one it drops), a coordination round, `submit`'s locked section (which
takes `tasks_mutex` only once it found an agent), one check of the wait loop. -/
def Process.regions (p : Process) : Action → List Region
  | .receive d =>
    match parseMessage (CStr.prefixOf (d.take (maxMessageSize - 1))) with
    | .ok msg => if msg.senderId = p.sys.localAgentId then [] else handleMessageRegions msg
    | _ => []
  | .coordinate => [.agents]
  | .submit _ _ => if bestAgent p.sys.agents = none then [.agents] else [.agentsTasks]
  | .poll _ => [.tasks]
  | .tick _ => []

/-- `anbs_distributed_ai_get_status` locks the registry for the agent lines, releases it, then
locks the session table for the task lines. -/
def getStatusRegions : List Region := [.agents, .tasks]

/-- `anbs_distributed_ai_cleanup` locks the registry for its shutdown loop. -/
def cleanupRegions : List Region := [.agents]

/-! ## Threads -/

/-- Threads running locked regions: the lock operations each has still to make, and the thread
holding each mutex. -/
structure Threads where
  pending : List (List LockOp)
  agentsOwner : Option ℕ
  tasksOwner : Option ℕ
  deriving DecidableEq

namespace Threads

def owner (t : Threads) : Mutex → Option ℕ
  | .agents => t.agentsOwner
  | .tasks => t.tasksOwner

def setOwner (t : Threads) : Mutex → Option ℕ → Threads
  | .agents, o => { t with agentsOwner := o }
  | .tasks, o => { t with tasksOwner := o }

@[simp] theorem pending_setOwner (t : Threads) (m : Mutex) (o : Option ℕ) :
    (t.setOwner m o).pending = t.pending := by cases m <;> rfl

@[simp] theorem owner_withPending (t : Threads) (ps : List (List LockOp)) (m : Mutex) :
    ({ t with pending := ps } : Threads).owner m = t.owner m := by cases m <;> rfl

@[simp] theorem owner_setOwner (t : Threads) (m m' : Mutex) (o : Option ℕ) :
    (t.setOwner m o).owner m' = if m' = m then o else t.owner m' := by
  cases m <;> cases m' <;> rfl

/-- Thread `i` makes its next operation: a `lock` waits while the mutex is held, an `unlock`
releases a mutex the thread holds. `none` when it has no operation left or cannot make it. -/
def step (t : Threads) (i : ℕ) : Option Threads :=
  match t.pending[i]? with
  | some (.lock m :: ops) =>
    if t.owner m = none then some ({ t with pending := t.pending.set i ops }.setOwner m (some i))
    else none
  | some (.unlock m :: ops) =>
    if t.owner m = some i then some ({ t with pending := t.pending.set i ops }.setOwner m none)
    else none
  | _ => none

def start (progs : List (List Region)) : Threads :=
  ⟨progs.map (·.flatMap Region.ops), none, none⟩

inductive Reachable (progs : List (List Region)) : Threads → Prop
  | start : Reachable progs (start progs)
  | step {t t' : Threads} {i : ℕ} : Reachable progs t → t.step i = some t' → Reachable progs t'

end Threads

/-! ## What a thread holds -/

def LockOp.holds (m : Mutex) (h : Bool) : LockOp → Bool
  | .lock m' => h || decide (m' = m)
  | .unlock m' => h && decide (m' ≠ m)

/-- Whether a thread holds `m` after making the operations `done`. -/
def heldAfter (done : List LockOp) (m : Mutex) : Bool := done.foldl (fun h op => op.holds m h) false

theorem heldAfter_concat (done : List LockOp) (op : LockOp) (m : Mutex) :
    heldAfter (done ++ [op]) m = op.holds m (heldAfter done m) := by
  simp [heldAfter, List.foldl_append]

/-- The lock order of the code's regions, operation by operation: an `unlock` releases a mutex
the thread holds; a `lock` takes a mutex the thread does not hold, never while it holds
`tasks_mutex`; and a thread holding `tasks_mutex` releases it next. -/
theorem Region.discipline (r : Region) {k : ℕ} {op : LockOp} (hop : r.ops[k]? = some op) :
    (∀ m, op = .unlock m → heldAfter (r.ops.take k) m = true) ∧
    (∀ m, op = .lock m → heldAfter (r.ops.take k) m = false ∧ heldAfter (r.ops.take k) .tasks = false) ∧
    (heldAfter (r.ops.take k) .tasks = true → op = .unlock .tasks) := by
  cases r <;> rcases k with _ | _ | _ | _ | k <;>
    simp only [Region.ops, List.getElem?_cons_succ, List.getElem?_cons_zero, List.getElem?_nil,
      Option.some.injEq, reduceCtorEq] at hop <;> subst hop <;>
    refine ⟨fun m h => ?_, fun m h => ?_, by decide⟩ <;> cases h <;> decide

theorem Region.heldAfter_ops (r : Region) (m : Mutex) : heldAfter r.ops m = false := by
  cases r <;> cases m <;> rfl

/-! ## The invariant -/

namespace Threads

/-- Where a thread with operations `ops` left is: done and holding nothing, or `k` operations
into region `r` with the regions `rest` still to run, holding exactly what those `k` operations
took. -/
def At (t : Threads) (i : ℕ) (ops : List LockOp) : Prop :=
  (ops = [] ∧ ∀ m, t.owner m ≠ some i) ∨
    ∃ (r : Region) (k : ℕ) (rest : List Region), k < r.ops.length ∧
      ops = r.ops.drop k ++ rest.flatMap Region.ops ∧
      ∀ m, t.owner m = some i ↔ heldAfter (r.ops.take k) m = true

/-- Every thread is at a point of its regions that accounts for the mutexes it holds, and every
owner is a thread. -/
structure LockInv (t : Threads) : Prop where
  pos : ∀ i ops, t.pending[i]? = some ops → t.At i ops
  owner_lt : ∀ m i, t.owner m = some i → i < t.pending.length

variable {t t' : Threads} {i j : ℕ}

theorem at_flatMap (hno : ∀ m, t.owner m ≠ some i) (prog : List Region) :
    t.At i (prog.flatMap Region.ops) := by
  cases prog with
  | nil => exact Or.inl ⟨rfl, hno⟩
  | cons r rest =>
    refine Or.inr ⟨r, 0, rest, by cases r <;> decide, by simp, fun m => ?_⟩
    simpa [heldAfter] using hno m

theorem lockInv_start (progs : List (List Region)) : LockInv (start progs) where
  pos i ops h := by
    simp only [start, List.getElem?_map, Option.map_eq_some'] at h
    obtain ⟨prog, -, rfl⟩ := h
    exact at_flatMap (fun m => by cases m <;> simp [start, owner]) prog
  owner_lt m i h := by cases m <;> simp [start, owner] at h

/-- Every step, by the operation it makes. -/
theorem step_cases (h : t.step i = some t') :
    ∃ op ops, t.pending[i]? = some (op :: ops) ∧
      ((∃ m, op = .lock m ∧ t.owner m = none ∧
          t' = { t with pending := t.pending.set i ops }.setOwner m (some i)) ∨
        (∃ m, op = .unlock m ∧ t.owner m = some i ∧
          t' = { t with pending := t.pending.set i ops }.setOwner m none)) := by
  unfold step at h
  split at h
  · rename_i m ops hp
    split at h
    · exact ⟨_, ops, hp, .inl ⟨m, rfl, ‹_›, (Option.some.inj h).symm⟩⟩
    · cases h
  · rename_i m ops hp
    split at h
    · exact ⟨_, ops, hp, .inr ⟨m, rfl, ‹_›, (Option.some.inj h).symm⟩⟩
    · cases h
  · cases h

theorem At.congr {ops : List LockOp} (h : t.At i ops) (ho : ∀ m, t'.owner m = some i ↔ t.owner m = some i) :
    t'.At i ops := by
  rcases h with ⟨rfl, hno⟩ | ⟨r, k, rest, hk, hops, hheld⟩
  · exact Or.inl ⟨rfl, fun m h => hno m ((ho m).1 h)⟩
  · exact Or.inr ⟨r, k, rest, hk, hops, fun m => (ho m).trans (hheld m)⟩

theorem At.next {op : LockOp} {ops : List LockOp} (h : t.At i (op :: ops))
    (ho : ∀ m, t'.owner m = some i ↔ op.holds m (t.owner m = some i)) : t'.At i ops := by
  rcases h with ⟨h, -⟩ | ⟨r, k, rest, hk, hops, hheld⟩
  · cases h
  · rw [List.drop_eq_getElem_cons hk, List.cons_append, List.cons.injEq] at hops
    obtain ⟨rfl, rfl⟩ := hops
    have hnew : ∀ m, t'.owner m = some i ↔ heldAfter (r.ops.take (k + 1)) m = true := fun m => by
      rw [ho m, List.take_succ, List.getElem?_eq_getElem hk, Option.toList_some, heldAfter_concat]
      cases hm : heldAfter (r.ops.take k) m <;> simp_all
    by_cases hk' : k + 1 < r.ops.length
    · exact Or.inr ⟨r, k + 1, rest, hk', rfl, hnew⟩
    · have hfull : r.ops.take (k + 1) = r.ops := List.take_of_length_le (by omega)
      rw [List.drop_of_length_le (by omega), List.nil_append]
      exact at_flatMap (fun m h => by simpa [hfull, Region.heldAfter_ops] using (hnew m).1 h) rest

theorem LockInv.step (hi : LockInv t) (h : t.step i = some t') : LockInv t' := by
  obtain ⟨op, ops, hp, hop⟩ := step_cases h
  have hlt : i < t.pending.length := (List.getElem?_eq_some_iff.1 hp).1
  have hother : ∀ j, j ≠ i → ∀ m, t'.owner m = some j ↔ t.owner m = some j := by
    intro j hj m
    rcases hop with ⟨m', rfl, hfree, rfl⟩ | ⟨m', rfl, hown, rfl⟩ <;>
      by_cases hm : m = m' <;> simp_all [Ne.symm hj]
  have hself : ∀ m, t'.owner m = some i ↔ op.holds m (t.owner m = some i) := by
    intro m
    rcases hop with ⟨m', rfl, -, rfl⟩ | ⟨m', rfl, -, rfl⟩ <;> by_cases hm : m = m' <;>
      first | (subst hm; simp [LockOp.holds]) | simp [LockOp.holds, hm, Ne.symm hm]
  have hlen : t'.pending = t.pending.set i ops := by
    rcases hop with ⟨m', -, -, rfl⟩ | ⟨m', -, -, rfl⟩ <;> simp
  refine ⟨fun j ops' hj => ?_, fun m j hj => ?_⟩
  · rw [hlen] at hj
    by_cases hji : j = i
    · subst hji
      rw [List.getElem?_set_self hlt, Option.some.injEq] at hj
      subst hj
      exact (hi.pos _ _ hp).next hself
    · rw [List.getElem?_set_ne (Ne.symm hji)] at hj
      exact (hi.pos j ops' hj).congr (hother j hji)
  · rw [hlen, List.length_set]
    by_cases hji : j = i
    · exact hji ▸ hlt
    · exact hi.owner_lt m j ((hother j hji m).1 hj)

theorem lockInv_of_reachable {progs : List (List Region)} (h : t.Reachable progs) : LockInv t := by
  induction h with
  | start => exact lockInv_start progs
  | step _ hs ih => exact ih.step hs

/-! ## Progress -/

variable {op : LockOp} {ops : List LockOp} {m : Mutex}

theorem LockInv.next (hi : LockInv t) (hp : t.pending[j]? = some (op :: ops)) :
    ∃ (r : Region) (k : ℕ), r.ops[k]? = some op ∧
      ∀ m, t.owner m = some j ↔ heldAfter (r.ops.take k) m = true := by
  rcases hi.pos j _ hp with ⟨h, -⟩ | ⟨r, k, rest, hk, hops, hheld⟩
  · cases h
  · rw [List.drop_eq_getElem_cons hk, List.cons_append, List.cons.injEq] at hops
    exact ⟨r, k, by rw [hops.1, List.getElem?_eq_getElem hk], hheld⟩

theorem LockInv.owner_next (hi : LockInv t) (h : t.owner m = some j) :
    ∃ op ops, t.pending[j]? = some (op :: ops) := by
  obtain ⟨ops, hp⟩ : ∃ ops, t.pending[j]? = some ops :=
    ⟨_, List.getElem?_eq_getElem (hi.owner_lt m j h)⟩
  rcases hi.pos j _ hp with ⟨rfl, hno⟩ | ⟨r, k, rest, hk, rfl, -⟩
  · exact absurd h (hno m)
  · exact ⟨_, _, by rw [hp, List.drop_eq_getElem_cons hk, List.cons_append]⟩

theorem LockInv.unlock_owned (hi : LockInv t) (hp : t.pending[j]? = some (.unlock m :: ops)) :
    t.owner m = some j := by
  obtain ⟨r, k, hop, hheld⟩ := hi.next hp
  exact (hheld m).2 ((r.discipline hop).1 m rfl)

theorem LockInv.lock_unowned (hi : LockInv t) (hp : t.pending[j]? = some (.lock m :: ops)) :
    t.owner m ≠ some j ∧ t.owner .tasks ≠ some j := by
  obtain ⟨r, k, hop, hheld⟩ := hi.next hp
  obtain ⟨h1, h2⟩ := (r.discipline hop).2.1 m rfl
  exact ⟨fun h => by simp [(hheld m).1 h] at h1, fun h => by simp [(hheld _).1 h] at h2⟩

theorem step_of_lock (hp : t.pending[j]? = some (.lock m :: ops)) (hm : t.owner m = none) :
    ∃ t', t.step j = some t' := ⟨_, by simp only [step, hp]; exact if_pos hm⟩

theorem step_of_unlock (hp : t.pending[j]? = some (.unlock m :: ops)) (hm : t.owner m = some j) :
    ∃ t', t.step j = some t' := ⟨_, by simp only [step, hp]; exact if_pos hm⟩

theorem LockInv.tasks_owner_steps (hi : LockInv t) (h : t.owner .tasks = some j) :
    ∃ t', t.step j = some t' := by
  obtain ⟨op, ops, hp⟩ := hi.owner_next h
  obtain ⟨r, k, hop, hheld⟩ := hi.next hp
  obtain rfl := (r.discipline hop).2.2 ((hheld _).1 h)
  exact step_of_unlock hp h

theorem LockInv.agents_owner_steps (hi : LockInv t) (h : t.owner .agents = some j) :
    ∃ j' t', t.step j' = some t' := by
  obtain ⟨op, ops, hp⟩ := hi.owner_next h
  cases op with
  | unlock m => exact ⟨j, step_of_unlock hp (hi.unlock_owned hp)⟩
  | lock m =>
    have hm : m = .tasks := by
      cases m
      · exact absurd h (hi.lock_unowned hp).1
      · rfl
    subst hm
    cases ht : t.owner .tasks with
    | none => exact ⟨j, step_of_lock hp ht⟩
    | some j'' => exact ⟨j'', hi.tasks_owner_steps ht⟩

/-- While a thread has an operation left, some thread can make its next one. -/
theorem LockInv.progress (hi : LockInv t) (hp : t.pending[i]? = some (op :: ops)) :
    ∃ j t', t.step j = some t' := by
  cases op with
  | unlock m => exact ⟨i, step_of_unlock hp (hi.unlock_owned hp)⟩
  | lock m =>
    cases ho : t.owner m with
    | none => exact ⟨i, step_of_lock hp ho⟩
    | some j =>
      cases m
      · exact hi.agents_owner_steps ho
      · exact ⟨j, hi.tasks_owner_steps ho⟩

end Threads

/-- However any number of threads, each running any sequence of the code's locked regions,
interleave their lock operations: a thread's next `unlock` is of a mutex it holds; its next
`lock` is of a mutex it does not hold, made while it does not hold `tasks_mutex`; and while any
thread has an operation left, some thread can make its next one. -/
theorem lock_order_deadlock_free (progs : List (List Region)) {t : Threads} (ht : t.Reachable progs) :
    (∀ (i : ℕ) (m : Mutex) (ops : List LockOp), t.pending[i]? = some (.unlock m :: ops) →
      t.owner m = some i) ∧
    (∀ (i : ℕ) (m : Mutex) (ops : List LockOp), t.pending[i]? = some (.lock m :: ops) →
      t.owner m ≠ some i ∧ t.owner .tasks ≠ some i) ∧
    (∀ (i : ℕ) (op : LockOp) (ops : List LockOp), t.pending[i]? = some (op :: ops) →
      ∃ j t', t.step j = some t') :=
  have hi := Threads.lockInv_of_reachable ht
  ⟨fun _ _ _ hp => hi.unlock_owned hp, fun _ _ _ hp => hi.lock_unowned hp, fun _ _ _ hp => hi.progress hp⟩

/-- A `submit` that found an agent and a `get_status` call, after `get_status` took
`agents_mutex`. -/
def submitAndStatus : Threads :=
  ⟨[Region.agentsTasks.ops, [.unlock .agents, .lock .tasks, .unlock .tasks]], some 1, none⟩

theorem lock_order_deadlock_free_submitAndStatus :
    submitAndStatus.Reachable [[.agentsTasks], getStatusRegions] ∧
    (∀ (i : ℕ) (m : Mutex) (ops : List LockOp), submitAndStatus.pending[i]? = some (.unlock m :: ops) →
      submitAndStatus.owner m = some i) ∧
    (∀ (i : ℕ) (m : Mutex) (ops : List LockOp), submitAndStatus.pending[i]? = some (.lock m :: ops) →
      submitAndStatus.owner m ≠ some i ∧ submitAndStatus.owner .tasks ≠ some i) ∧
    (∀ (i : ℕ) (op : LockOp) (ops : List LockOp), submitAndStatus.pending[i]? = some (op :: ops) →
      ∃ j t', submitAndStatus.step j = some t') :=
  have h : submitAndStatus.Reachable [[.agentsTasks], getStatusRegions] := .step (i := 1) .start rfl
  ⟨h, lock_order_deadlock_free _ h⟩

/-! ## Each step writes under its lock -/

/-- A step of the process model writes the registry only inside a region that holds
`agents_mutex`, and the session table only inside one that holds `tasks_mutex`. -/
theorem step_writes_under_lock {p q : Process} {a : Action} (h : p.step a = some q) :
    (q.sys.agents ≠ p.sys.agents → ∃ r ∈ p.regions a, LockOp.lock .agents ∈ r.ops) ∧
    (q.sys.activeTasks ≠ p.sys.activeTasks → ∃ r ∈ p.regions a, LockOp.lock .tasks ∈ r.ops) := by
  rcases step_cases h with ⟨d, -, rfl⟩ | ⟨d, msg, rfl, ⟨hparse, hne⟩, rfl⟩ | ⟨rfl, rfl⟩ |
    ⟨d, u, rfl, rfl⟩ | ⟨k, -, rfl⟩ | ⟨n, -, rfl⟩
  · exact ⟨fun h => absurd rfl h, fun h => absurd rfl h⟩
  · have hr : p.regions (.receive d) = handleMessageRegions msg := by
      simp [Process.regions, hparse, hne]
    rw [hr]
    refine ⟨fun _ => ?_, fun hch => ?_⟩
    · unfold handleMessageRegions
      split <;> exact ⟨_, List.mem_singleton_self _, by decide⟩
    · rcases @activeTasks_handleMessage p.sys msg p.clock with heq | ⟨ht, -⟩ | ⟨ht, -⟩
      · exact absurd heq hch
      all_goals exact ⟨.agentsTasks, by simp [handleMessageRegions, ht], by decide⟩
  · exact ⟨fun _ => ⟨.agents, by simp [Process.regions], by decide⟩, fun hch => absurd rfl hch⟩
  · by_cases hb : bestAgent p.sys.agents = none
    · have hs : (p.startCall (submitTask d u p.clock p.sys)).sys = p.sys := by
        simp [submitTask, hb, Process.startCall]
      exact ⟨fun hch => absurd (congrArg _ hs) hch, fun hch => absurd (congrArg _ hs) hch⟩
    · have hr : p.regions (.submit d u) = [.agentsTasks] := by simp [Process.regions, hb]
      rw [hr]
      exact ⟨fun _ => ⟨_, List.mem_singleton_self _, by decide⟩, fun _ => ⟨_, List.mem_singleton_self _, by decide⟩⟩
  · exact ⟨fun h => absurd rfl h, fun h => absurd rfl h⟩
  · exact ⟨fun h => absurd rfl h, fun h => absurd rfl h⟩

theorem step_writes_under_lock_handshakenB :
    ((handshakenB.startCall (submitTask [] session1 handshakenB.clock handshakenB.sys)).sys.agents ≠
        handshakenB.sys.agents →
      ∃ r ∈ handshakenB.regions (.submit [] session1), LockOp.lock .agents ∈ r.ops) ∧
    ((handshakenB.startCall (submitTask [] session1 handshakenB.clock handshakenB.sys)).sys.activeTasks ≠
        handshakenB.sys.activeTasks →
      ∃ r ∈ handshakenB.regions (.submit [] session1), LockOp.lock .tasks ∈ r.ops) :=
  step_writes_under_lock (a := .submit [] session1) rfl

end DistributedAi
