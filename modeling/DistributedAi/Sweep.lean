import DistributedAi.Registry

/-! The staleness sweep of `coordination_thread`, which reads `time(NULL)` again at every
Online row. -/
namespace DistributedAi

/-- One pass of the heartbeat loop, `clock k` being what `time(NULL)` returns at row `k`: each
row as the pass leaves it, with the heartbeats sent to it. -/
def sweepRows (localId : CStr 63) (clock : ℕ → ℤ) (agents : List AiAgent) :
    List (AiAgent × List Send) :=
  agents.mapIdx fun k a => sweepAgent localId (clock k) a

theorem agents_coordinationRound (now : ℤ) (s : DistributedAiSystem) :
    (coordinationRound now s).1.agents = (sweepRows s.localAgentId (fun _ => now) s.agents).map Prod.fst := by
  apply List.ext_getElem?
  intro k
  simp [coordinationRound, DistributedAiSystem.withAgents, sweepRows]

/-- What the pass does to one row: an Online row silent for more than 30 s goes Offline and is
sent nothing; a fresh Online row keeps its status and is sent one heartbeat; any other row is
left as it is and sent nothing; and no field but the status ever changes. -/
theorem sweepAgent_spec (localId : CStr 63) (now : ℤ) (a : AiAgent) :
    let r := sweepAgent localId now a
    (a.status = .online → now - a.lastSeen > 30 → r.1.status = .offline ∧ r.2 = []) ∧
    (a.status = .online → now - a.lastSeen ≤ 30 → r.1.status = .online ∧
      ∃ m, r.2 = [⟨a, m⟩] ∧ m.type = MessageType.heartbeat.toInt ∧ m.recipientId = a.agentId) ∧
    (a.status ≠ .online → r.1.status = a.status ∧ r.2 = []) ∧
    { r.1 with status := a.status } = a := by
  refine ⟨fun hon hs => ?_, fun hon hs => ?_, fun hon => ?_, ?_⟩
  · simp [sweepAgent, hon, hs]
  · simp only [sweepAgent, hon, if_true, if_neg (not_lt.2 hs)]
    exact ⟨trivial, _, rfl, rfl, ofBytes_bytes_self _⟩
  · simp [sweepAgent, hon]
  · rw [sweepAgent_fst]

/-- Every row after a pass of the staleness sweep, whatever the clock reads at each row: the
rows stay in place, a stale Online row is Offline, a fresh Online row keeps its status and is
sent exactly one heartbeat, a row that is not Online is left as it was however long it has
been silent, and no other field changes. -/
theorem sweep_demotes_only_stale_online (localId : CStr 63) (clock : ℕ → ℤ) (agents : List AiAgent) :
    (sweepRows localId clock agents).length = agents.length ∧
    ∀ k a, agents[k]? = some a → ∃ a' sends, (sweepRows localId clock agents)[k]? = some (a', sends) ∧
      (a.status = .online → clock k - a.lastSeen > 30 → a'.status = .offline ∧ sends = []) ∧
      (a.status = .online → clock k - a.lastSeen ≤ 30 → a'.status = .online ∧
        ∃ m, sends = [⟨a, m⟩] ∧ m.type = MessageType.heartbeat.toInt ∧ m.recipientId = a.agentId) ∧
      (a.status ≠ .online → a'.status = a.status ∧ sends = []) ∧
      { a' with status := a.status } = a := by
  refine ⟨List.length_mapIdx, fun k a ha => ?_⟩
  exact ⟨_, _, by simp [sweepRows, ha], sweepAgent_spec localId (clock k) a⟩

def staleDiscoveredB : Process := { discoveredB with clock := 31 }

/-- A Discovering row silent for more than 30 s is not demoted by the sweep. -/
theorem stale_discovering_row_kept :
    ∃ p q a, Reachable p ∧ p.step .coordinate = some q ∧ p.sys.agents[0]? = some a ∧
      p.clock - a.lastSeen > 30 ∧ q.sys.agents[0]? = some a ∧ a.status = .discovering :=
  ⟨staleDiscoveredB, _, discoveredAgent (fromB .discovery CStr.empty []) 1 0,
    .step reachable_discoveredB (a := .tick 31) rfl, rfl, rfl, by decide, rfl, rfl⟩

end DistributedAi
