import DistributedAi.Dispatch
import DistributedAi.Sessions

/-! What a row's `task_queue_size` counts: only `submit` writes it, so in every reachable state a
peer's queue is the number of session rows assigned to it, and never passes 5. -/
namespace DistributedAi

/-- The number of session rows assigned to `id`. -/
def DistributedAiSystem.assignedCount (s : DistributedAiSystem) (id : CStr 63) : ℕ :=
  (s.activeTasks.map (·.assignedAgent)).count id

def DistributedAiSystem.queues (s : DistributedAiSystem) : List (CStr 63 × ℤ) :=
  s.agents.map fun a => (a.agentId, a.taskQueueSize)

/-- Every session row is assigned to the local agent or to a registry row; every row's queue is
the number of session rows assigned to it, and at most 5. -/
structure QueueInv (s : DistributedAiSystem) : Prop where
  assigned : ∀ x ∈ s.activeTasks.map (·.assignedAgent), x = s.localAgentId ∨ x ∈ s.ids
  queue : ∀ a ∈ s.agents, a.taskQueueSize = s.assignedCount a.agentId
  le_five : ∀ a ∈ s.agents, a.taskQueueSize ≤ 5

section
variable {s s' : DistributedAiSystem}

theorem ids_eq_of_queues (h : s'.queues = s.queues) : s'.ids = s.ids := by
  have := congrArg (List.map Prod.fst) h
  simpa [DistributedAiSystem.queues, DistributedAiSystem.ids, Function.comp_def] using this

theorem exists_of_queues (hq : s'.queues = s.queues) :
    ∀ a ∈ s'.agents, ∃ b ∈ s.agents, a.agentId = b.agentId ∧ a.taskQueueSize = b.taskQueueSize := by
  intro a ha
  obtain ⟨b, hb, hab⟩ := List.mem_map.1 (hq ▸ List.mem_map_of_mem _ ha :
    (a.agentId, a.taskQueueSize) ∈ s.queues)
  exact ⟨b, hb, (Prod.mk.inj hab).1.symm, (Prod.mk.inj hab).2.symm⟩

/-- A change that keeps each row's id and queue, the agents the session rows are assigned to and
the local id keeps the invariant. -/
theorem QueueInv.of_queues (hi : QueueInv s) (hq : s'.queues = s.queues)
    (ht : s'.activeTasks.map (·.assignedAgent) = s.activeTasks.map (·.assignedAgent))
    (hl : s'.localAgentId = s.localAgentId) : QueueInv s' := by
  refine ⟨by rw [ht, hl, ids_eq_of_queues hq]; exact hi.assigned, fun a ha => ?_, fun a ha => ?_⟩
  · obtain ⟨b, hb, hid, hqs⟩ := exists_of_queues hq a ha
    rw [hqs, hi.queue b hb]
    simp only [DistributedAiSystem.assignedCount, ht, hid]
  · obtain ⟨b, hb, -, hqs⟩ := exists_of_queues hq a ha
    exact hqs ▸ hi.le_five b hb

theorem QueueInv.appendLocal (hi : QueueInv s) (hr : RegistryInv s) (hq : s'.queues = s.queues)
    (ht : s'.activeTasks.map (·.assignedAgent) = s.activeTasks.map (·.assignedAgent) ++ [s.localAgentId])
    (hl : s'.localAgentId = s.localAgentId) : QueueInv s' := by
  refine ⟨fun x hx => ?_, fun a ha => ?_, fun a ha => ?_⟩
  · rw [ht, List.mem_append, List.mem_singleton] at hx
    rw [hl, ids_eq_of_queues hq]
    exact hx.elim (hi.assigned x) fun h => .inl h
  · obtain ⟨b, hb, hid, hqs⟩ := exists_of_queues hq a ha
    have hne : s.localAgentId ≠ b.agentId := fun h => hr.not_local (h ▸ List.mem_map_of_mem _ hb)
    rw [hqs, hi.queue b hb]
    simp only [DistributedAiSystem.assignedCount, ht, hid, List.count_append, List.count_singleton',
      if_neg hne, Nat.add_zero]
  · obtain ⟨b, hb, -, hqs⟩ := exists_of_queues hq a ha
    exact hqs ▸ hi.le_five b hb

theorem queues_withAgents_updateFirst (p : AiAgent → Bool) {f : AiAgent → AiAgent}
    (hf : ∀ a, (f a).agentId = a.agentId ∧ (f a).taskQueueSize = a.taskQueueSize) (h) :
    (s.withAgents (updateFirst p f s.agents) h).queues = s.queues :=
  map_updateFirst p f (fun a => by rw [(hf a).1, (hf a).2]) s.agents

theorem QueueInv.append (hi : QueueInv s) {a : AiAgent} (hid : a.agentId ≠ s.localAgentId)
    (hnew : a.agentId ∉ s.ids) (hq : a.taskQueueSize = 0) (hs' : s'.agents = s.agents ++ [a])
    (ht : s'.activeTasks = s.activeTasks) (hl : s'.localAgentId = s.localAgentId) : QueueInv s' := by
  have hids : s'.ids = s.ids ++ [a.agentId] := by simp [DistributedAiSystem.ids, hs']
  refine ⟨fun x hx => ?_, fun b hb => ?_, fun b hb => ?_⟩
  · rw [ht] at hx
    rw [hl, hids]
    exact (hi.assigned x hx).imp_right (List.mem_append_left _)
  · rw [hs', List.mem_append, List.mem_singleton] at hb
    rcases hb with hb | rfl
    · rw [hi.queue b hb]
      simp only [DistributedAiSystem.assignedCount, ht]
    · rw [hq, DistributedAiSystem.assignedCount, ht,
        List.count_eq_zero.2 fun hx => (hi.assigned _ hx).elim hid hnew]
      rfl
  · rw [hs', List.mem_append, List.mem_singleton] at hb
    rcases hb with hb | rfl
    · exact hi.le_five b hb
    · rw [hq]; decide

end

section
variable {s : DistributedAiSystem} {msg : AiMessage} {now : ℤ}

/-- A handled message keeps the invariant of a system whose registry invariant holds. -/
theorem QueueInv.handleMessage (hi : QueueInv s) (hr : RegistryInv s) (hne : msg.senderId ≠ s.localAgentId) :
    QueueInv (handleMessage msg now s) := by
  unfold DistributedAi.handleMessage
  split
  · unfold handleDiscovery
    split
    · exact hi.of_queues (queues_withAgents_updateFirst _ (by intro; exact ⟨rfl, rfl⟩) _) rfl rfl
    · rename_i hany
      split
      · refine hi.append (a := discoveredAgent msg (s.agents.length + 1) now) ?_ ?_ rfl rfl rfl rfl
        · simpa [discoveredAgent, CStr.ext (CStr.ofBytes_self msg.senderId le_rfl)] using hne
        · simpa [discoveredAgent, CStr.ext (CStr.ofBytes_self msg.senderId le_rfl),
            DistributedAiSystem.ids] using hany
      · exact hi
  · exact hi.of_queues (queues_withAgents_updateFirst _ (by intro; exact ⟨rfl, rfl⟩) _) rfl rfl
  · unfold handleTaskRequest
    split
    · refine hi.appendLocal hr rfl ?_ rfl
      simp [DistributedAiSystem.withTasks, requestedTask, ofBytes_bytes_self]
    · exact hi
  · exact hi.of_queues rfl (map_updateFirst _ _ (by intro; rfl) _) rfl
  · exact hi.of_queues (queues_withAgents_updateFirst _ (by intro; exact ⟨rfl, rfl⟩) _) rfl rfl
  · exact hi

theorem queues_coordinationRound (now : ℤ) (s : DistributedAiSystem) :
    (coordinationRound now s).1.queues = s.queues := by
  simp only [coordinationRound, DistributedAiSystem.withAgents, DistributedAiSystem.queues, List.map_map]
  congr 1
  funext a
  simp only [Function.comp_apply]
  rw [sweepAgent_fst]

end

/-! ## The submit step -/

section
variable {s s' : DistributedAiSystem}

theorem RegistryInv.index_eq (hr : RegistryInv s) {i j : ℕ} {a b : AiAgent}
    (ha : s.agents[i]? = some a) (hb : s.agents[j]? = some b) (h : a.agentId = b.agentId) :
    i = j :=
  List.getElem?_inj (by simpa [DistributedAiSystem.ids] using (List.getElem?_eq_some_iff.1 ha).1)
    hr.nodup (by simp [DistributedAiSystem.ids, ha, hb, h])

/-- After the chosen row's queue is incremented, a row is that row with one more task, or an
unchanged row of another id. -/
theorem mem_modify_queue (hr : RegistryInv s) {i : ℕ} {best a : AiAgent}
    (hrow : s.agents[i]? = some best)
    (ha : a ∈ s.agents.modify (fun a => { a with taskQueueSize := a.taskQueueSize + 1 }) i) :
    a = { best with taskQueueSize := best.taskQueueSize + 1 } ∨
      a ∈ s.agents ∧ a.agentId ≠ best.agentId := by
  obtain ⟨j, hj⟩ := List.getElem?_of_mem ha
  rw [List.getElem?_modify] at hj
  obtain ⟨b, hb, hab⟩ := Option.map_eq_some'.1 hj
  by_cases hij : i = j
  · subst hij
    obtain rfl : best = b := Option.some.inj (hrow.symm.trans hb)
    exact .inl (by simpa using hab.symm)
  · rw [if_neg hij] at hab
    subst hab
    exact .inr ⟨List.getElem?_mem hb, fun h => hij (hr.index_eq hrow hb h.symm)⟩

/-- `submit`'s locked section keeps the invariant: the chosen row had fewer than five tasks, and
its queue grows by one as one more session row is assigned to it. -/
theorem QueueInv.submit (hi : QueueInv s) (hr : RegistryInv s) {d : List UInt8} {u : CStr 63}
    {now : ℤ} {i : ℕ} {best : AiAgent} (hb : bestAgent s.agents = some (i, best))
    (hag : s'.agents = s.agents.modify (fun a => { a with taskQueueSize := a.taskQueueSize + 1 }) i)
    (ht : s'.activeTasks = s.activeTasks ++ [submittedTask d u best now])
    (hl : s'.localAgentId = s.localAgentId) : QueueInv s' := by
  have hbest := bestAgent_eq_some_iff.1 hb
  have hid : (submittedTask d u best now).assignedAgent = best.agentId :=
    CStr.ext (CStr.ofBytes_self best.agentId le_rfl)
  have hcount : ∀ id, s'.assignedCount id = s.assignedCount id + if best.agentId = id then 1 else 0 := by
    intro id
    simp only [DistributedAiSystem.assignedCount, ht, List.map_append, List.map_cons, List.map_nil,
      List.count_append, hid, List.count_singleton', eq_comm]
  refine ⟨fun x hx => ?_, fun a ha => ?_, fun a ha => ?_⟩
  · rw [hl, DistributedAiSystem.ids, hag, map_modify (by intro; rfl)]
    rw [ht, List.map_append, List.mem_append, List.map_singleton, hid, List.mem_singleton] at hx
    rcases hx with hx | rfl
    · exact hi.assigned x hx
    · exact .inr (List.mem_map_of_mem _ (List.getElem?_mem hbest.row))
  · rcases mem_modify_queue hr hbest.row (hag ▸ ha) with rfl | ⟨ha, hne⟩
    · rw [hcount, if_pos rfl, hi.queue best (List.getElem?_mem hbest.row)]
      push_cast; rfl
    · rw [hcount, if_neg (Ne.symm hne), Nat.add_zero, hi.queue a ha]
  · rcases mem_modify_queue hr hbest.row (hag ▸ ha) with rfl | ⟨ha, -⟩
    · have := hbest.eligible.2
      show best.taskQueueSize + 1 ≤ 5
      omega
    · exact hi.le_five a ha

end

/-! ## Every reachable state -/

section
variable {p q : Process} {a : Action}

theorem QueueInv.step (hi : QueueInv p.sys) (hr : RegistryInv p.sys) (h : p.step a = some q) :
    QueueInv q.sys := by
  rcases step_cases h with ⟨d, -, rfl⟩ | ⟨d, msg, -, ⟨-, hne⟩, rfl⟩ | ⟨-, rfl⟩ | ⟨d, u, -, rfl⟩ |
    ⟨k, -, rfl⟩ | ⟨n, -, rfl⟩
  · exact hi
  · exact hi.handleMessage hr hne
  · exact hi.of_queues (queues_coordinationRound _ _) rfl rfl
  · rcases startCall_submitTask p d u with h' | ⟨i, best, hb, -, hag, ht, hl⟩
    · rw [h']; exact hi
    · exact hi.submit hr hb hag ht hl
  · exact hi
  · exact hi

theorem queueInv_of_reachable (hp : Reachable p) : QueueInv p.sys := by
  induction hp with
  | init => exact ⟨fun _ h => absurd h (List.not_mem_nil _), fun _ h => absurd h (List.not_mem_nil _),
      fun _ h => absurd h (List.not_mem_nil _)⟩
  | step hp' hs ih => exact ih.step (registryInv_of_reachable hp') hs

/-- In every reachable state a registry row's `task_queue_size` is the number of session rows
assigned to that agent, and at most 5; and every session row is assigned to the local agent or
to an agent of the registry. -/
theorem queue_counts_assigned_sessions (hp : Reachable p) :
    (∀ r ∈ p.sys.agents, r.taskQueueSize = p.sys.assignedCount r.agentId ∧ r.taskQueueSize ≤ 5) ∧
      ∀ t ∈ p.sys.activeTasks, t.assignedAgent = p.sys.localAgentId ∨ t.assignedAgent ∈ p.sys.ids :=
  have hi := queueInv_of_reachable hp
  ⟨fun r hr => ⟨hi.queue r hr, hi.le_five r hr⟩,
    fun _ ht => hi.assigned _ (List.mem_map_of_mem _ ht)⟩

/-- A list whose elements all lie in `S`, holding each of them at most `k` times, has at most
`k * S.length` elements. -/
theorem length_le_of_count_le {α : Type} [DecidableEq α] {k : ℕ} :
    ∀ (S L : List α), (∀ x ∈ L, x ∈ S) → (∀ s ∈ S, L.count s ≤ k) → L.length ≤ k * S.length
  | [], L, hL, _ => by
    rw [List.eq_nil_iff_forall_not_mem.2 fun x hx => List.not_mem_nil x (hL x hx)]
    rfl
  | s :: S, L, hL, hc => by
    have hsplit := List.length_eq_countP_add_countP (· == s) L
    rw [← List.count_eq_countP, List.countP_eq_length_filter] at hsplit
    have ih := length_le_of_count_le S (L.filter fun a => ¬(a == s))
      (fun x hx => by
        rw [List.mem_filter] at hx
        rcases List.mem_cons.1 (hL x hx.1) with rfl | h
        · simp at hx
        · exact h)
      fun t ht => ((List.filter_sublist L).count_le t).trans (hc t (List.mem_cons_of_mem _ ht))
    have := hc s (List.mem_cons_self _ _)
    rw [hsplit, List.length_cons, Nat.mul_succ]
    omega

/-- Over a whole run a process delegates at most five tasks to each agent of its registry, so
at most fifty in all: the session rows assigned to other agents never outnumber five times the
registry's rows. -/
theorem delegations_bounded (hp : Reachable p) :
    (p.sys.activeTasks.filter (·.assignedAgent ≠ p.sys.localAgentId)).length ≤ 5 * p.sys.agents.length ∧
      5 * p.sys.agents.length ≤ 50 := by
  have hi := queueInv_of_reachable hp
  have hcount : ∀ id ∈ p.sys.ids, p.sys.assignedCount id ≤ 5 := by
    intro id hid
    obtain ⟨r, hr, rfl⟩ := List.mem_map.1 hid
    have := hi.le_five r hr
    rw [hi.queue r hr] at this
    omega
  refine ⟨?_, by have := p.sys.agents_le; simp only [maxAiAgents] at this; omega⟩
  have h := length_le_of_count_le p.sys.ids
    ((p.sys.activeTasks.map (·.assignedAgent)).filter (· ≠ p.sys.localAgentId))
    (fun x hx => by
      rw [List.mem_filter, decide_eq_true_eq] at hx
      exact (hi.assigned x hx.1).resolve_left hx.2)
    fun id hid => ((List.filter_sublist _).count_le id).trans (hcount id hid)
  rwa [List.filter_map, List.length_map, DistributedAiSystem.ids, List.length_map] at h

/-! ## Queues only grow -/

theorem ids_prefix_step (h : p.step a = some q) : p.sys.ids <+: q.sys.ids := by
  rcases (ids_step h).2 with hq | ⟨_, _, -, -, -, -, -, -, hq⟩
  · exact ⟨[], by rw [hq, List.append_nil]⟩
  · exact ⟨_, hq.symm⟩

theorem assigned_prefix_step (h : p.step a = some q) :
    p.sys.activeTasks.map (·.assignedAgent) <+: q.sys.activeTasks.map (·.assignedAgent) := by
  rcases tasks_step h with hq | ⟨_, _, _, -, -, hq⟩ | ⟨_, _, -, -, -, -, hq⟩ | ⟨_, _, -, -, -, hq⟩
  · exact ⟨[], by rw [hq, List.append_nil]⟩
  · exact ⟨_, by rw [hq, List.map_append]⟩
  · exact ⟨_, by rw [hq, List.map_append]⟩
  · exact ⟨[], by rw [hq, map_updateFirst _ _ (by intro; rfl), List.append_nil]⟩

/-- A step keeps every registry row at its index under its id, and never lowers its queue. -/
theorem queue_le_step (hp : Reachable p) (h : p.step a = some q) {j : ℕ} {r : AiAgent}
    (hr : p.sys.agents[j]? = some r) :
    ∃ r', q.sys.agents[j]? = some r' ∧ r'.agentId = r.agentId ∧ r.taskQueueSize ≤ r'.taskQueueSize := by
  have hid : q.sys.ids[j]? = some r.agentId := by
    obtain ⟨t, ht⟩ := ids_prefix_step h
    rw [← ht, List.getElem?_append_left (by simpa [DistributedAiSystem.ids] using
      (List.getElem?_eq_some_iff.1 hr).1)]
    simp [DistributedAiSystem.ids, hr]
  simp only [DistributedAiSystem.ids, List.getElem?_map, Option.map_eq_some'] at hid
  obtain ⟨r', hr', hrid⟩ := hid
  refine ⟨r', hr', hrid, ?_⟩
  rw [(queueInv_of_reachable hp).queue r (List.getElem?_mem hr),
    (queueInv_of_reachable (hp.step h)).queue r' (List.getElem?_mem hr'), hrid]
  have := (assigned_prefix_step h).sublist.count_le r.agentId
  simp only [DistributedAiSystem.assignedCount]
  omega

theorem queue_le_run {acts : List Action} (hrun : Run p acts q) (hp : Reachable p) {j : ℕ}
    {r : AiAgent} (hr : p.sys.agents[j]? = some r) :
    ∃ r', q.sys.agents[j]? = some r' ∧ r'.agentId = r.agentId ∧ r.taskQueueSize ≤ r'.taskQueueSize := by
  induction hrun with
  | nil => exact ⟨r, hr, rfl, le_rfl⟩
  | snoc hrun' hs ih =>
    obtain ⟨r₁, h₁, hid₁, hle₁⟩ := ih
    obtain ⟨r₂, h₂, hid₂, hle₂⟩ := queue_le_step (hrun'.reachable hp) hs h₁
    exact ⟨r₂, h₂, hid₂.trans hid₁, hle₁.trans hle₂⟩

/-- Nothing lowers a queue: along any run every row keeps its index and its id and no queue
shrinks, so a peer that has been delegated five tasks keeps its row with a full queue for the
rest of the run, and no later `submit` picks it. -/
theorem saturated_peer_never_chosen {acts : List Action} (hp : Reachable p) (hrun : Run p acts q)
    {j : ℕ} {r : AiAgent} (hr : p.sys.agents[j]? = some r) (h5 : r.taskQueueSize = 5) :
    (∀ (i : ℕ) (r₀ : AiAgent), p.sys.agents[i]? = some r₀ → ∃ r₁ : AiAgent, q.sys.agents[i]? = some r₁ ∧
        r₁.agentId = r₀.agentId ∧ r₀.taskQueueSize ≤ r₁.taskQueueSize) ∧
      ∃ r', q.sys.agents[j]? = some r' ∧ r'.agentId = r.agentId ∧ r'.taskQueueSize = 5 ∧
        ∀ i best, bestAgent q.sys.agents = some (i, best) → i ≠ j := by
  obtain ⟨r', hr', hid, hle⟩ := queue_le_run hrun hp hr
  have hq5 : r'.taskQueueSize ≤ 5 :=
    (queueInv_of_reachable (hrun.reachable hp)).le_five r' (List.getElem?_mem hr')
  refine ⟨fun i r₀ h => queue_le_run hrun hp h, r', hr', hid, by omega, fun i best hb hij => ?_⟩
  have hbest := bestAgent_eq_some_iff.1 hb
  subst hij
  obtain rfl : best = r' := Option.some.inj (hbest.row.symm.trans hr')
  have := hbest.eligible.2
  omega

end

/-! ## Five delegations to `agent-b` -/

def submitEmpty (p : Process) : Process := p.startCall (submitTask [] session1 p.clock p.sys)

theorem step_submitEmpty (p : Process) : p.step (.submit [] session1) = some (submitEmpty p) := rfl

/-- `handshakenB` after five submits, all delegated to `agent-b`. -/
def delegatedFive : Process := submitEmpty^[5] handshakenB

theorem reachable_delegatedFive : Reachable delegatedFive :=
  .step (.step (.step (.step (.step reachable_handshakenB (step_submitEmpty _)) (step_submitEmpty _))
    (step_submitEmpty _)) (step_submitEmpty _)) (step_submitEmpty _)

theorem queue_counts_assigned_sessions_delegatedFive :
    Reachable delegatedFive ∧
      (∀ r ∈ delegatedFive.sys.agents, r.taskQueueSize = delegatedFive.sys.assignedCount r.agentId ∧
        r.taskQueueSize ≤ 5) ∧
      ∀ t ∈ delegatedFive.sys.activeTasks,
        t.assignedAgent = delegatedFive.sys.localAgentId ∨ t.assignedAgent ∈ delegatedFive.sys.ids :=
  ⟨reachable_delegatedFive, queue_counts_assigned_sessions reachable_delegatedFive⟩

theorem delegations_bounded_delegatedFive :
    Reachable delegatedFive ∧
      (delegatedFive.sys.activeTasks.filter (·.assignedAgent ≠ delegatedFive.sys.localAgentId)).length ≤
        5 * delegatedFive.sys.agents.length ∧ 5 * delegatedFive.sys.agents.length ≤ 50 :=
  ⟨reachable_delegatedFive, delegations_bounded reachable_delegatedFive⟩

/-- After five delegations `agent-b`'s row is full, and a sixth submit does not pick it. -/
theorem saturated_peer_never_chosen_delegatedFive :
    ∃ r, delegatedFive.sys.agents[0]? = some r ∧ r.taskQueueSize = 5 ∧
      (∀ (i : ℕ) (r₀ : AiAgent), delegatedFive.sys.agents[i]? = some r₀ →
        ∃ r₁ : AiAgent, (submitEmpty delegatedFive).sys.agents[i]? = some r₁ ∧
        r₁.agentId = r₀.agentId ∧ r₀.taskQueueSize ≤ r₁.taskQueueSize) ∧
      ∃ r', (submitEmpty delegatedFive).sys.agents[0]? = some r' ∧ r'.agentId = r.agentId ∧
        r'.taskQueueSize = 5 ∧ ∀ i best, bestAgent (submitEmpty delegatedFive).sys.agents = some (i, best) → i ≠ 0 :=
  ⟨_, rfl, by decide, saturated_peer_never_chosen reachable_delegatedFive
    (.snoc (.nil _) (step_submitEmpty _)) (j := 0) rfl (by decide)⟩

end DistributedAi
