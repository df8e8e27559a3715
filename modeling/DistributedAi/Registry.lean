import DistributedAi.Process
import Mathlib.Data.List.Nodup

/-! The agent registry `agents[0..agent_count)`: rows are only ever appended, by a Discovery
from a sender not yet present while there is room; ids stay distinct and never equal the
local id; and a row turns Online only when its own peer's Handshake or Heartbeat is handled. -/
namespace DistributedAi

/-! ## The first-match scan -/

section
variable {α β : Type} (p : α → Bool) (f : α → α)

theorem updateFirst_eq_modify (l : List α) : updateFirst p f l = l.modify f (l.findIdx p) := by
  induction l with
  | nil => rfl
  | cons a l ih => by_cases h : p a <;> simp [updateFirst, h, ih, List.findIdx_cons]

theorem map_updateFirst {g : α → β} (hf : ∀ a, g (f a) = g a) (l : List α) :
    (updateFirst p f l).map g = l.map g := by
  induction l with
  | nil => rfl
  | cons a l ih => by_cases h : p a <;> simp [updateFirst, h, ih, hf]

theorem getElem?_updateFirst (l : List α) (i : ℕ) :
    (updateFirst p f l)[i]? = l[i]?.map fun a => if l.findIdx p = i then f a else a := by
  rw [updateFirst_eq_modify, List.getElem?_modify]
  rfl

end

/-! ## The ids -/

def DistributedAiSystem.ids (s : DistributedAiSystem) : List (CStr 63) := s.agents.map (·.agentId)

section
variable {s : DistributedAiSystem} {msg : AiMessage} {now : ℤ}

@[simp] theorem ids_withAgents (agents : List AiAgent) (h) :
    (s.withAgents agents h).ids = agents.map (·.agentId) := rfl

@[simp] theorem ids_withTasks (tasks : List TaskSession) (h) : (s.withTasks tasks h).ids = s.ids := rfl

theorem ids_withAgents_updateFirst (p : AiAgent → Bool) {f : AiAgent → AiAgent}
    (hf : ∀ a, (f a).agentId = a.agentId) (h) :
    (s.withAgents (updateFirst p f s.agents) h).ids = s.ids :=
  map_updateFirst p f hf s.agents

@[simp] theorem ids_handleHandshake : (handleHandshake msg now s).ids = s.ids :=
  ids_withAgents_updateFirst _ (by intro; rfl) _

@[simp] theorem ids_handleHeartbeat : (handleHeartbeat msg now s).ids = s.ids :=
  ids_withAgents_updateFirst _ (by intro; rfl) _

@[simp] theorem ids_handleTaskRequest : (handleTaskRequest msg now s).ids = s.ids := by
  unfold handleTaskRequest; split <;> rfl

@[simp] theorem ids_handleTaskResponse : (handleTaskResponse msg now s).ids = s.ids := rfl

/-- A Discovery appends its sender exactly when the sender has no row and there is room. -/
theorem ids_handleDiscovery :
    (handleDiscovery msg now s).ids =
      if msg.senderId ∉ s.ids ∧ s.ids.length < maxAiAgents then s.ids ++ [msg.senderId] else s.ids := by
  unfold handleDiscovery
  split
  · rename_i hany
    have hm : msg.senderId ∈ s.ids := by simpa [DistributedAiSystem.ids] using hany
    rw [if_neg fun h => h.1 hm]
    exact ids_withAgents_updateFirst _ (by intro; rfl) _
  · rename_i hany
    have hm : msg.senderId ∉ s.ids := by simpa [DistributedAiSystem.ids] using hany
    split
    · rename_i hroom
      rw [if_pos ⟨hm, by simpa [DistributedAiSystem.ids] using hroom⟩]
      simp only [ids_withAgents, List.map_append, List.map_cons, List.map_nil, discoveredAgent]
      rw [CStr.ext (CStr.ofBytes_self msg.senderId le_rfl)]
      rfl
    · rename_i hroom
      rw [if_neg fun h => hroom (by simpa [DistributedAiSystem.ids] using h.2)]

theorem ids_handleMessage :
    (handleMessage msg now s).ids = s.ids ∨
      (MessageType.ofInt? msg.type = some .discovery ∧ msg.senderId ∉ s.ids ∧
        s.ids.length < maxAiAgents ∧ (handleMessage msg now s).ids = s.ids ++ [msg.senderId]) := by
  unfold handleMessage
  split
  · rename_i h
    rw [ids_handleDiscovery]
    split
    · rename_i h'
      exact .inr ⟨h, h'.1, h'.2, rfl⟩
    · exact .inl rfl
  all_goals simp

theorem ids_handleMessage_of_new (ht : MessageType.ofInt? msg.type = some .discovery)
    (hn : msg.senderId ∉ s.ids) (hl : s.ids.length < maxAiAgents) :
    (handleMessage msg now s).ids = s.ids ++ [msg.senderId] := by
  simp only [handleMessage, ht]
  rw [ids_handleDiscovery, if_pos ⟨hn, hl⟩]

end

/-! ## Every step keeps the ids, or appends a new sender's -/

section
variable {p q : Process} {a : Action}

theorem map_modify {α β : Type} {f : α → α} {g : α → β} (hf : ∀ a, g (f a) = g a) (l : List α)
    (i : ℕ) : (l.modify f i).map g = l.map g := by
  apply List.ext_getElem?
  intro j
  simp only [List.getElem?_map, List.getElem?_modify]
  cases l[j]? with
  | none => rfl
  | some v => by_cases h : i = j <;> simp [h, hf]

theorem sweepAgent_fst (localId : CStr 63) (now : ℤ) (a : AiAgent) :
    (sweepAgent localId now a).1 = { a with status := (sweepAgent localId now a).1.status } := by
  unfold sweepAgent; split <;> (try split) <;> rfl

@[simp] theorem agentId_sweepAgent (localId : CStr 63) (now : ℤ) (a : AiAgent) :
    (sweepAgent localId now a).1.agentId = a.agentId := by
  rw [sweepAgent_fst]

@[simp] theorem ids_coordinationRound (now : ℤ) (s : DistributedAiSystem) :
    (coordinationRound now s).1.ids = s.ids := by
  simp [coordinationRound, DistributedAiSystem.ids, Function.comp_def,
    DistributedAiSystem.withAgents]

theorem submitTask_started {d : List UInt8} {u : CStr 63} {now : ℤ} {s s' : DistributedAiSystem}
    {row : ℕ} {sent : Send} (h : submitTask d u now s = .started row s' sent) :
    ∃ i best, bestAgent s.agents = some (i, best) ∧ s.activeTasks.length < maxTasks ∧
      row = s.activeTasks.length ∧
      s'.agents = s.agents.modify (fun a => { a with taskQueueSize := a.taskQueueSize + 1 }) i ∧
      s'.activeTasks = s.activeTasks ++ [submittedTask d u best now] ∧
      s'.localAgentId = s.localAgentId := by
  unfold submitTask at h
  split at h
  · cases h
  · rename_i i best hb
    split at h
    · cases h
      exact ⟨i, best, hb, ‹_›, rfl, rfl, rfl, rfl⟩
    · cases h

/-- What a submit's locked section does to the system: nothing, or, with an agent picked and
room in the table, one more task queued at that agent and a submitted row appended. -/
theorem startCall_submitTask (p : Process) (d : List UInt8) (u : CStr 63) :
    (p.startCall (submitTask d u p.clock p.sys)).sys = p.sys ∨
      ∃ i best, bestAgent p.sys.agents = some (i, best) ∧ p.sys.activeTasks.length < maxTasks ∧
        (p.startCall (submitTask d u p.clock p.sys)).sys.agents =
          p.sys.agents.modify (fun a => { a with taskQueueSize := a.taskQueueSize + 1 }) i ∧
        (p.startCall (submitTask d u p.clock p.sys)).sys.activeTasks =
          p.sys.activeTasks ++ [submittedTask d u best p.clock] ∧
        (p.startCall (submitTask d u p.clock p.sys)).sys.localAgentId = p.sys.localAgentId := by
  rcases hr : submitTask d u p.clock p.sys with r | ⟨row, s, sent⟩
  · exact .inl rfl
  · obtain ⟨i, best, hb, hroom, -, hag, htasks, hloc⟩ := submitTask_started hr
    exact .inr ⟨i, best, hb, hroom, hag, htasks, hloc⟩

/-- What a step may do to the ids: keep them, or append the sender of a handled Discovery that
came from another agent, was not yet present, and found room. -/
def IdsStep (p : Process) (a : Action) (q : Process) : Prop :=
  q.sys.ids = p.sys.ids ∨
    ∃ d msg, a = .receive d ∧
      parseMessage (CStr.prefixOf (d.take (maxMessageSize - 1))) = .ok msg ∧
      MessageType.ofInt? msg.type = some .discovery ∧ msg.senderId ≠ p.sys.localAgentId ∧
      msg.senderId ∉ p.sys.ids ∧ p.sys.ids.length < maxAiAgents ∧
      q.sys.ids = p.sys.ids ++ [msg.senderId]

theorem ids_step (h : p.step a = some q) :
    q.sys.localAgentId = p.sys.localAgentId ∧ IdsStep p a q := by
  unfold IdsStep
  rcases step_cases h with ⟨d, -, rfl⟩ | ⟨d, msg, rfl, ⟨hparse, hne⟩, rfl⟩ | ⟨-, rfl⟩ |
    ⟨d, u, -, rfl⟩ | ⟨k, -, rfl⟩ | ⟨n, -, rfl⟩
  · exact ⟨rfl, .inl rfl⟩
  · refine ⟨localAgentId_handleMessage, ?_⟩
    rcases @ids_handleMessage p.sys msg p.clock with h' | ⟨ht, hn, hl, h'⟩
    · exact .inl h'
    · exact .inr ⟨d, msg, rfl, hparse, ht, hne, hn, hl, h'⟩
  · exact ⟨rfl, .inl (ids_coordinationRound _ _)⟩
  · rcases startCall_submitTask p d u with h' | ⟨i, best, -, -, hag, -, hloc⟩
    · rw [h']; exact ⟨rfl, .inl rfl⟩
    · exact ⟨hloc, .inl (by rw [DistributedAiSystem.ids, hag]; exact map_modify (by intro; rfl) _ _)⟩
  · exact ⟨rfl, .inl rfl⟩
  · exact ⟨rfl, .inl rfl⟩

theorem Run.localAgentId {acts : List Action} (h : Run p acts q) :
    q.sys.localAgentId = p.sys.localAgentId := by
  induction h with
  | nil => rfl
  | snoc _ hs ih => exact (ids_step hs).1.trans ih

/-- A Discovery from a sender with no row, delivered `n + 1` times while there is room, adds
exactly one row, for its sender. -/
theorem run_discovery_replicate {d : List UInt8} {msg : AiMessage} (hh : p.Handles d msg)
    (ht : MessageType.ofInt? msg.type = some .discovery) (hn : msg.senderId ∉ p.sys.ids)
    (hl : p.sys.ids.length < maxAiAgents) (n : ℕ) :
    ∃ q, Run p (List.replicate (n + 1) (.receive d)) q ∧ q.sys.ids = p.sys.ids ++ [msg.senderId] := by
  induction n with
  | zero => exact ⟨_, (Run.nil p).snoc (step_receive_of_handles hh), ids_handleMessage_of_new ht hn hl⟩
  | succ n ih =>
    obtain ⟨q, hrun, hq⟩ := ih
    have hh' : q.Handles d msg := ⟨hh.1, hrun.localAgentId ▸ hh.2⟩
    refine ⟨_, by rw [List.replicate_succ']; exact hrun.snoc (step_receive_of_handles hh'), ?_⟩
    rcases @ids_handleMessage q.sys msg q.clock with h | ⟨-, hn', -, -⟩
    · exact h.trans hq
    · exact absurd (hq ▸ List.mem_append_right _ (List.mem_singleton_self _)) hn'

end

/-! ## The registry invariant -/

/-- The registry's representation invariant beyond the array bound: distinct ids, none of
them the local id. -/
structure RegistryInv (s : DistributedAiSystem) : Prop where
  nodup : s.ids.Nodup
  not_local : s.localAgentId ∉ s.ids

theorem registryInv_init (localAgentId : CStr 63) (clock : ℤ) :
    RegistryInv (Process.init localAgentId clock).sys := ⟨List.nodup_nil, List.not_mem_nil _⟩

theorem RegistryInv.step {p q : Process} {a : Action} (hi : RegistryInv p.sys)
    (h : p.step a = some q) : RegistryInv q.sys := by
  obtain ⟨hloc, hq | ⟨d, msg, -, -, -, hne, hn, -, hq⟩⟩ := ids_step h
  · exact ⟨hq ▸ hi.nodup, hq ▸ hloc ▸ hi.not_local⟩
  · refine ⟨hq ▸ List.nodup_append.2 ⟨hi.nodup, List.nodup_singleton _, by simpa using hn⟩, ?_⟩
    rw [hq, hloc]
    simpa [eq_comm] using ⟨hi.not_local, hne⟩

theorem registryInv_of_reachable {p : Process} (hp : Reachable p) : RegistryInv p.sys := by
  induction hp with
  | init l c => exact registryInv_init l c
  | step _ hs ih => exact ih.step hs

/-- The registry in every reachable state: at most `MAX_AI_AGENTS` rows with distinct ids, none
the local id; every step keeps the ids in place or appends one, the sender of a Discovery not
yet present while there is room; and such a Discovery, handled any number of times in a row,
adds exactly one row. -/
theorem registry_representation {p : Process} (hp : Reachable p) :
    p.sys.agents.length ≤ maxAiAgents ∧ p.sys.ids.Nodup ∧ p.sys.localAgentId ∉ p.sys.ids ∧
      (∀ a q, p.step a = some q → IdsStep p a q) ∧
      ∀ d msg, p.Handles d msg → MessageType.ofInt? msg.type = some .discovery →
        msg.senderId ∉ p.sys.ids → p.sys.ids.length < maxAiAgents → ∀ n, ∃ q,
          Run p (List.replicate (n + 1) (.receive d)) q ∧ q.sys.ids = p.sys.ids ++ [msg.senderId] :=
  ⟨p.sys.agents_le, (registryInv_of_reachable hp).nodup, (registryInv_of_reachable hp).not_local,
    fun _ _ h => (ids_step h).2, fun _ _ hh ht hn hl => run_discovery_replicate hh ht hn hl⟩

/-! ## Turning Online -/

/-- Row `i` is Online in `l'` and was not Online, or did not exist, in `l`. -/
def TurnsOnline (l l' : List AiAgent) (i : ℕ) (row : AiAgent) : Prop :=
  l'[i]? = some row ∧ row.status = .online ∧ ∀ r, l[i]? = some r → r.status ≠ .online

section
variable {l : List AiAgent} {i : ℕ} {row : AiAgent}

theorem not_turnsOnline_self : ¬ TurnsOnline l l i row := fun ⟨h, hon, hoff⟩ => hoff row h hon

theorem not_turnsOnline_of_online {l' : List AiAgent}
    (h : ∀ row, l'[i]? = some row → row.status = .online → ∃ r, l[i]? = some r ∧ r.status = .online) :
    ¬ TurnsOnline l l' i row := by
  rintro ⟨h', hon, hoff⟩
  obtain ⟨r, hr, hon'⟩ := h row h' hon
  exact hoff r hr hon'

/-- The first-match scan turns a row Online only by applying its update to a row it picks. -/
theorem turnsOnline_updateFirst {p : AiAgent → Bool} {f : AiAgent → AiAgent}
    (h : TurnsOnline l (updateFirst p f l) i row) :
    ∃ a, l[i]? = some a ∧ a.status ≠ .online ∧ p a = true ∧ row = f a := by
  obtain ⟨h', hon, hoff⟩ := h
  rw [getElem?_updateFirst] at h'
  cases hl : l[i]? with
  | none => simp [hl] at h'
  | some a =>
    simp only [hl, Option.map_some', Option.some.injEq] at h'
    split at h'
    · rename_i hi
      subst hi
      obtain ⟨hlt, ha⟩ := List.getElem?_eq_some_iff.1 hl
      exact ⟨a, rfl, hoff a hl, ha ▸ List.findIdx_getElem (w := hlt), h'.symm⟩
    · exact absurd (h' ▸ hon) (hoff a hl)

end

section
variable {s : DistributedAiSystem} {msg : AiMessage} {now : ℤ} {i : ℕ} {row : AiAgent}

@[simp] theorem agents_handleTaskRequest : (handleTaskRequest msg now s).agents = s.agents := by
  unfold handleTaskRequest; split <;> rfl

@[simp] theorem agents_handleTaskResponse : (handleTaskResponse msg now s).agents = s.agents := rfl

theorem not_turnsOnline_handleDiscovery :
    ¬ TurnsOnline s.agents (handleDiscovery msg now s).agents i row := by
  unfold handleDiscovery
  split
  · intro h
    obtain ⟨a, -, ha, -, rfl⟩ := turnsOnline_updateFirst h
    exact ha h.2.1
  · split
    · refine not_turnsOnline_of_online fun r hr hon => ?_
      simp only [DistributedAiSystem.withAgents] at hr
      by_cases hi : i < s.agents.length
      · rw [List.getElem?_append_left hi] at hr
        exact ⟨r, hr, hon⟩
      · rw [List.getElem?_append_right (by omega)] at hr
        cases hr' : i - s.agents.length <;> simp only [hr', List.getElem?_cons_zero,
          List.getElem?_cons_succ, List.getElem?_nil, Option.some.injEq, reduceCtorEq] at hr
        subst hr
        simp [discoveredAgent] at hon
    · exact not_turnsOnline_self

/-- Handling a message turns a row Online only for a Handshake or a Heartbeat from that row's
peer. -/
theorem turnsOnline_handleMessage (h : TurnsOnline s.agents (handleMessage msg now s).agents i row) :
    (MessageType.ofInt? msg.type = some .handshake ∨ MessageType.ofInt? msg.type = some .heartbeat) ∧
      msg.senderId = row.agentId := by
  unfold handleMessage at h
  split at h
  · exact absurd h not_turnsOnline_handleDiscovery
  · rename_i ht
    obtain ⟨a, -, -, hp, rfl⟩ := turnsOnline_updateFirst h
    exact ⟨.inl ht, (of_decide_eq_true hp).symm⟩
  · exact absurd (by simpa using h) not_turnsOnline_self
  · exact absurd (by simpa using h) not_turnsOnline_self
  · rename_i ht
    obtain ⟨a, -, -, hp, rfl⟩ := turnsOnline_updateFirst h
    exact ⟨.inr ht, (of_decide_eq_true hp).symm⟩
  · exact absurd h not_turnsOnline_self

end

theorem online_of_sweepAgent {localId : CStr 63} {now : ℤ} {a : AiAgent}
    (h : (sweepAgent localId now a).1.status = .online) : a.status = .online := by
  unfold sweepAgent at h
  split at h
  · assumption
  · exact h

/-- A row turns Online only when a Handshake or a Heartbeat whose sender is that row's agent
is handled. -/
theorem online_only_by_handshake_or_heartbeat {p q : Process} {a : Action} (h : p.step a = some q)
    {i : ℕ} {row : AiAgent} (hq : q.sys.agents[i]? = some row) (hon : row.status = .online)
    (hoff : ∀ r, p.sys.agents[i]? = some r → r.status ≠ .online) :
    ∃ d msg, a = .receive d ∧ parseMessage (CStr.prefixOf (d.take (maxMessageSize - 1))) = .ok msg ∧
      (MessageType.ofInt? msg.type = some .handshake ∨ MessageType.ofInt? msg.type = some .heartbeat) ∧
      msg.senderId = row.agentId := by
  have ht : TurnsOnline p.sys.agents q.sys.agents i row := ⟨hq, hon, hoff⟩
  rcases step_cases h with ⟨d, rfl, rfl⟩ | ⟨d, msg, rfl, ⟨hparse, -⟩, rfl⟩ | ⟨rfl, rfl⟩ |
    ⟨d, u, rfl, rfl⟩ | ⟨k, rfl, rfl⟩ | ⟨n, rfl, rfl⟩
  · exact absurd ht not_turnsOnline_self
  · exact ⟨d, msg, rfl, hparse, turnsOnline_handleMessage ht⟩
  · refine absurd ht (not_turnsOnline_of_online fun r hr hon => ?_)
    simp only [coordinationRound, DistributedAiSystem.withAgents, List.map_map, List.getElem?_map,
      Option.map_eq_some', Function.comp_apply] at hr
    obtain ⟨a, ha, rfl⟩ := hr
    exact ⟨a, ha, online_of_sweepAgent hon⟩
  · rcases startCall_submitTask p d u with h' | ⟨j, best, -, -, hag, -, -⟩
    · exact absurd (h' ▸ ht) not_turnsOnline_self
    · rw [hag] at ht
      refine absurd ht (not_turnsOnline_of_online fun r hr hon => ?_)
      rw [List.getElem?_modify, Option.map_eq_map, Option.map_eq_some'] at hr
      obtain ⟨a, ha, rfl⟩ := hr
      exact ⟨a, ha, by split at hon <;> exact hon⟩
  · exact absurd ht not_turnsOnline_self
  · exact absurd ht not_turnsOnline_self

/-- `agent-a` after a Discovery from `agent-b`: one row, Discovering. -/
def discoveredB : Process :=
  { Process.init idA 0 with
    sys := handleMessage (fromB .discovery CStr.empty []) 0 (DistributedAiSystem.init idA) }

def heartbeatRowB : AiAgent :=
  { discoveredAgent (fromB .discovery CStr.empty []) 1 0 with status := .online }

theorem reachable_discoveredB : Reachable discoveredB :=
  .step (.init idA 0) (step_receive_fromB rfl _ _ (Nat.zero_le _))

/-- `discoveredB` after `agent-b`'s Handshake: its row is Online, with an empty queue. -/
def handshakenB : Process :=
  { discoveredB with sys := handleMessage (fromB .handshake CStr.empty []) 0 discoveredB.sys }

theorem reachable_handshakenB : Reachable handshakenB :=
  .step reachable_discoveredB (step_receive_fromB rfl _ _ (Nat.zero_le _))

/-- A third agent's Discovery, sent at time 0. -/
def discoveryFromC : AiMessage :=
  createMessage (CStr.lit "agent-c" (by decide) (by decide)) 0 CStr.empty .discovery (ascii "agent-a") []

theorem registry_representation_handshakenB :
    Reachable handshakenB ∧ (handshakenB.sys.agents.length ≤ maxAiAgents ∧ handshakenB.sys.ids.Nodup ∧
      handshakenB.sys.localAgentId ∉ handshakenB.sys.ids ∧
      (∀ a q, handshakenB.step a = some q → IdsStep handshakenB a q) ∧
      ∀ d msg, handshakenB.Handles d msg → MessageType.ofInt? msg.type = some .discovery →
        msg.senderId ∉ handshakenB.sys.ids → handshakenB.sys.ids.length < maxAiAgents → ∀ n, ∃ q,
          Run handshakenB (List.replicate (n + 1) (.receive d)) q ∧
            q.sys.ids = handshakenB.sys.ids ++ [msg.senderId]) ∧
      ∃ q, Run handshakenB (List.replicate 3 (.receive (encodeMessage discoveryFromC))) q ∧
        q.sys.ids = [idB, discoveryFromC.senderId] :=
  have h := registry_representation reachable_handshakenB
  ⟨reachable_handshakenB, h, h.2.2.2.2 (encodeMessage discoveryFromC) discoveryFromC
    ⟨parseMessage_received (createMessage_wellFormed _ _ _ _ _ (by decide)) (by decide), by decide⟩
    rfl (by decide) (by decide) 2⟩

theorem step_heartbeat_discoveredB :
    discoveredB.step (.receive (encodeMessage (fromB .heartbeat CStr.empty []))) =
      some { discoveredB with sys := handleMessage (fromB .heartbeat CStr.empty []) 0 discoveredB.sys } :=
  step_receive_fromB rfl _ _ (Nat.zero_le _)

theorem discoveredB_not_online : ∀ r, discoveredB.sys.agents[0]? = some r → r.status ≠ .online := by
  rintro r ⟨⟩
  decide

theorem online_only_by_handshake_or_heartbeat_run :
    ∃ d msg, Action.receive (encodeMessage (fromB .heartbeat CStr.empty [])) = .receive d ∧
      parseMessage (CStr.prefixOf (d.take (maxMessageSize - 1))) = .ok msg ∧
      (MessageType.ofInt? msg.type = some .handshake ∨ MessageType.ofInt? msg.type = some .heartbeat) ∧
      msg.senderId = heartbeatRowB.agentId :=
  online_only_by_handshake_or_heartbeat step_heartbeat_discoveredB (i := 0) rfl rfl
    discoveredB_not_online

/-- A row a Discovery created turns Online on a Heartbeat, with no Handshake. -/
theorem online_by_heartbeat :
    ∃ p d q row, Reachable p ∧ p.step (.receive d) = some q ∧ q.sys.agents[0]? = some row ∧
      row.status = .online ∧ (∀ r, p.sys.agents[0]? = some r → r.status ≠ .online) ∧
      ∀ msg, parseMessage (CStr.prefixOf (d.take (maxMessageSize - 1))) = .ok msg →
        MessageType.ofInt? msg.type = some .heartbeat := by
  refine ⟨_, _, _, heartbeatRowB, reachable_discoveredB, step_heartbeat_discoveredB, rfl, rfl,
    discoveredB_not_online, fun msg h => ?_⟩
  rw [parseMessage_received (fromB_wellFormed _ _ _) (Nat.zero_le _), Parsed.ok.injEq] at h
  subst h
  rfl

end DistributedAi
