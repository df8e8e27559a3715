import DistributedAi.Registry

/-! The session table `active_tasks[0..task_count)`. Rows are appended by a submit or by an
inbound TaskRequest and resolved in place by an inbound TaskResponse; they never move, are never
re-keyed and never go away, and `task_count` only grows. -/
namespace DistributedAi

/-! ## What a step does to the table -/

section
variable {s : DistributedAiSystem} {msg : AiMessage} {now : ℤ}

@[simp] theorem activeTasks_handleHandshake : (handleHandshake msg now s).activeTasks = s.activeTasks :=
  rfl

@[simp] theorem activeTasks_handleHeartbeat : (handleHeartbeat msg now s).activeTasks = s.activeTasks :=
  rfl

@[simp] theorem activeTasks_handleDiscovery : (handleDiscovery msg now s).activeTasks = s.activeTasks := by
  unfold handleDiscovery; split
  · rfl
  · split <;> rfl

@[simp] theorem activeTasks_coordinationRound :
    (coordinationRound now s).1.activeTasks = s.activeTasks := rfl

theorem activeTasks_handleTaskRequest :
    (handleTaskRequest msg now s).activeTasks =
      if s.activeTasks.length < maxTasks then s.activeTasks ++ [requestedTask msg s.localAgentId now]
      else s.activeTasks := by
  unfold handleTaskRequest; split <;> simp_all [DistributedAiSystem.withTasks]

/-- What `handle_message` does to the table: nothing, append the row of a TaskRequest that
found room, or resolve the first row with a TaskResponse's session id. -/
theorem activeTasks_handleMessage :
    (handleMessage msg now s).activeTasks = s.activeTasks ∨
    (MessageType.ofInt? msg.type = some .taskRequest ∧ s.activeTasks.length < maxTasks ∧
      (handleMessage msg now s).activeTasks = s.activeTasks ++ [requestedTask msg s.localAgentId now]) ∨
    (MessageType.ofInt? msg.type = some .taskResponse ∧
      (handleMessage msg now s).activeTasks =
        updateFirst (·.sessionId = msg.sessionId) (resolvedTask msg now) s.activeTasks) := by
  unfold handleMessage
  split
  · exact .inl activeTasks_handleDiscovery
  · exact .inl rfl
  · rename_i ht
    rw [activeTasks_handleTaskRequest]
    split
    · exact .inr (.inl ⟨ht, ‹_›, rfl⟩)
    · exact .inl rfl
  · exact .inr (.inr ⟨‹_›, rfl⟩)
  · exact .inl rfl
  · exact .inl rfl

end

section
variable {p q : Process} {a : Action}

/-- What a step does to the table: nothing, append a submitted row or the row of a handled
TaskRequest that found room, or resolve the first row with a handled TaskResponse's id. -/
theorem tasks_step (h : p.step a = some q) :
    q.sys.activeTasks = p.sys.activeTasks ∨
    (∃ d u best, a = .submit d u ∧ p.sys.activeTasks.length < maxTasks ∧
      q.sys.activeTasks = p.sys.activeTasks ++ [submittedTask d u best p.clock]) ∨
    (∃ d msg, a = .receive d ∧ p.Handles d msg ∧ MessageType.ofInt? msg.type = some .taskRequest ∧
      p.sys.activeTasks.length < maxTasks ∧
      q.sys.activeTasks = p.sys.activeTasks ++ [requestedTask msg p.sys.localAgentId p.clock]) ∨
    (∃ d msg, a = .receive d ∧ p.Handles d msg ∧ MessageType.ofInt? msg.type = some .taskResponse ∧
      q.sys.activeTasks =
        updateFirst (·.sessionId = msg.sessionId) (resolvedTask msg p.clock) p.sys.activeTasks) := by
  rcases step_cases h with ⟨d, -, rfl⟩ | ⟨d, msg, rfl, hm, rfl⟩ | ⟨-, rfl⟩ | ⟨d, u, rfl, rfl⟩ |
    ⟨k, -, rfl⟩ | ⟨n, -, rfl⟩
  · exact .inl rfl
  · rcases @activeTasks_handleMessage p.sys msg p.clock with
      h' | ⟨ht, hr, h'⟩ | ⟨ht, h'⟩
    · exact .inl h'
    · exact .inr (.inr (.inl ⟨d, msg, rfl, hm, ht, hr, h'⟩))
    · exact .inr (.inr (.inr ⟨d, msg, rfl, hm, ht, h'⟩))
  · exact .inl rfl
  · rcases startCall_submitTask p d u with h' | ⟨i, best, -, hroom, -, htasks, -⟩
    · exact .inl (congrArg _ h')
    · exact .inr (.inl ⟨d, u, best, rfl, hroom, htasks⟩)
  · exact .inl rfl
  · exact .inl rfl

end

/-! ## Rows advance -/

def TaskStatus.rank : TaskStatus → ℕ
  | .submitted => 0
  | .processing => 1
  | .completed => 2

theorem TaskStatus.rank_le (st : TaskStatus) : st.rank ≤ 2 := by cases st <;> decide

/-- Every row of `l` is still in `l'` at its index, with its session id, and its status has not
moved back. -/
def RowsAdvance (l l' : List TaskSession) : Prop :=
  ∀ (i : ℕ) (t : TaskSession), l[i]? = some t →
    ∃ t', l'[i]? = some t' ∧ t'.sessionId = t.sessionId ∧ t.status.rank ≤ t'.status.rank

namespace RowsAdvance

variable {l l' l'' : List TaskSession}

theorem refl (l : List TaskSession) : RowsAdvance l l := fun _ t h => ⟨t, h, rfl, le_rfl⟩

theorem trans (h : RowsAdvance l l') (h' : RowsAdvance l' l'') : RowsAdvance l l'' := by
  intro i t ht
  obtain ⟨t', ht', hid, hr⟩ := h i t ht
  obtain ⟨t'', ht'', hid', hr'⟩ := h' i t' ht'
  exact ⟨t'', ht'', hid'.trans hid, hr.trans hr'⟩

theorem append (l rows : List TaskSession) : RowsAdvance l (l ++ rows) := fun i t h =>
  ⟨t, by rw [List.getElem?_append_left (List.getElem?_eq_some_iff.1 h).1, h], rfl, le_rfl⟩

theorem resolve (msg : AiMessage) (now : ℤ) (l : List TaskSession) :
    RowsAdvance l (updateFirst (·.sessionId = msg.sessionId) (resolvedTask msg now) l) := by
  intro i t h
  rw [getElem?_updateFirst, h]
  refine ⟨_, rfl, ?_, ?_⟩ <;> split
  · rfl
  · rfl
  · exact t.status.rank_le
  · exact le_rfl

end RowsAdvance

theorem RowsAdvance.length_le {l l' : List TaskSession} (h : RowsAdvance l l') :
    l.length ≤ l'.length := by
  cases hl : l.length with
  | zero => exact Nat.zero_le _
  | succ n =>
    obtain ⟨t', ht', -⟩ := h n _ (List.getElem?_eq_getElem (by omega))
    exact (List.getElem?_eq_some_iff.1 ht').1

theorem rowsAdvance_step {p q : Process} {a : Action} (h : p.step a = some q) :
    RowsAdvance p.sys.activeTasks q.sys.activeTasks := by
  rcases tasks_step h with h' | ⟨_, _, _, -, -, h'⟩ | ⟨_, _, -, -, -, -, h'⟩ | ⟨_, msg, -, -, -, h'⟩ <;>
    rw [h']
  · exact .refl _
  · exact .append _ _
  · exact .append _ _
  · exact .resolve msg _ _

theorem rowsAdvance_run {p q : Process} {acts : List Action} (h : Run p acts q) :
    RowsAdvance p.sys.activeTasks q.sys.activeTasks := by
  induction h with
  | nil => exact .refl _
  | snoc _ hs ih => exact ih.trans (rowsAdvance_step hs)

/-- `agent-a` after a TaskRequest of `agent-b` for `session-1`: one completed row. -/
def requestedByB : Process :=
  { Process.init idA 0 with
    sys := handleMessage (fromB .taskRequest session1 []) 0 (DistributedAiSystem.init idA) }

theorem reachable_requestedByB : Reachable requestedByB :=
  .step (.init idA 0) (step_receive_fromB rfl _ _ (Nat.zero_le _))

theorem getElem?_handleTaskResponse (msg : AiMessage) (now : ℤ) (s : DistributedAiSystem) (j : ℕ) :
    (handleTaskResponse msg now s).activeTasks[j]? = s.activeTasks[j]?.map fun t =>
      if s.activeTasks.findIdx (·.sessionId = msg.sessionId) = j then resolvedTask msg now t else t :=
  getElem?_updateFirst _ _ _ _

/-- A TaskRequest that finds room adds a row with its session id whether or not one is there,
and a TaskResponse resolves the first row with its session id and leaves every other row as it
was. -/
theorem session_id_not_a_key (s : DistributedAiSystem) (msg : AiMessage) (now : ℤ) :
    (MessageType.ofInt? msg.type = some .taskRequest → s.activeTasks.length < maxTasks →
      ((handleMessage msg now s).activeTasks.filter (·.sessionId = msg.sessionId)).length =
        (s.activeTasks.filter (·.sessionId = msg.sessionId)).length + 1) ∧
    (MessageType.ofInt? msg.type = some .taskResponse → ∀ (j : ℕ) (t : TaskSession),
      s.activeTasks[j]? = some t →
        (s.activeTasks.findIdx (·.sessionId = msg.sessionId) = j →
          (handleMessage msg now s).activeTasks[j]? = some (resolvedTask msg now t)) ∧
        (s.activeTasks.findIdx (·.sessionId = msg.sessionId) ≠ j →
          (handleMessage msg now s).activeTasks[j]? = some t)) := by
  constructor
  · intro ht hroom
    simp only [handleMessage, ht, activeTasks_handleTaskRequest, hroom, if_true, List.filter_append,
      List.length_append]
    simp [requestedTask, ofBytes_bytes_self]
  · intro ht j t hj
    simp only [handleMessage, ht, getElem?_handleTaskResponse, hj, Option.map_some']
    exact ⟨fun he => by rw [if_pos he], fun hne => by rw [if_neg hne]⟩

def requestedTwice : Process :=
  { requestedByB with sys := handleMessage (fromB .taskRequest session1 []) 0 requestedByB.sys }

/-- Two rows of a reachable table carry one session id. -/
theorem duplicate_session_rows :
    ∃ p t t', Reachable p ∧ p.sys.activeTasks[0]? = some t ∧ p.sys.activeTasks[1]? = some t' ∧
      t.sessionId = t'.sessionId :=
  ⟨requestedTwice, _, _, .step reachable_requestedByB (step_receive_fromB rfl _ _ (Nat.zero_le _)),
    rfl, rfl, rfl⟩

/-! ## Capacity -/

/-- A full table turns every submit that finds an agent away with `Task queue full`, and drops
every TaskRequest. -/
theorem full_table_refuses {s : DistributedAiSystem} (hlen : s.activeTasks.length = maxTasks) :
    (∀ d u now, bestAgent s.agents ≠ none → submitTask d u now s = .failed queueFullText) ∧
      (∀ msg now, MessageType.ofInt? msg.type = some .taskRequest →
        (handleMessage msg now s).activeTasks = s.activeTasks) := by
  have hroom : ¬ s.activeTasks.length < maxTasks := by omega
  refine ⟨fun d u now hb => ?_, fun msg now ht => ?_⟩
  · unfold submitTask
    split
    · exact absurd ‹_› hb
    · rw [dif_neg hroom]
  · simp only [handleMessage, ht, activeTasks_handleTaskRequest, hroom, if_false]

/-- Once the table holds `100` rows it holds `100` for ever, whatever their statuses: every
later submit that finds an agent fails with `Task queue full`, and every TaskRequest is
dropped. -/
theorem capacity_is_permanent {p q : Process} {acts : List Action} (hrun : Run p acts q)
    (hfull : p.sys.activeTasks.length = maxTasks) :
    q.sys.activeTasks.length = maxTasks ∧
      (∀ d u, bestAgent q.sys.agents ≠ none → submitTask d u q.clock q.sys = .failed queueFullText) ∧
      (∀ msg now, MessageType.ofInt? msg.type = some .taskRequest →
        (handleMessage msg now q.sys).activeTasks = q.sys.activeTasks) := by
  have hlen : q.sys.activeTasks.length = maxTasks :=
    le_antisymm q.sys.tasks_le (hfull ▸ (rowsAdvance_run hrun).length_le)
  exact ⟨hlen, fun d u => (full_table_refuses hlen).1 d u _, (full_table_refuses hlen).2⟩

/-- `n` TaskRequests of `agent-b` that find room append `n` completed rows. -/
theorem run_taskRequests {p : Process} (hloc : p.sys.localAgentId = idA) {payload : List UInt8}
    (hp : payload.length ≤ 1154) (n : ℕ) (hn : p.sys.activeTasks.length + n ≤ maxTasks) :
    ∃ q, Run p (List.replicate n (.receive (encodeMessage (fromB .taskRequest session1 payload)))) q ∧
      q.sys.agents = p.sys.agents ∧ q.sys.localAgentId = idA ∧ q.clock = p.clock ∧
      q.sys.activeTasks =
        p.sys.activeTasks ++ List.replicate n (requestedTask (fromB .taskRequest session1 payload) idA p.clock) := by
  induction n with
  | zero => exact ⟨p, .nil p, rfl, hloc, rfl, by simp⟩
  | succ n ih =>
    obtain ⟨q, hrun, hag, hl, hc, ht⟩ := ih (by omega)
    have hroom : q.sys.activeTasks.length < maxTasks := by
      simp only [ht, List.length_append, List.length_replicate]; omega
    refine ⟨{ q with sys := handleMessage (fromB .taskRequest session1 payload) q.clock q.sys }, ?_, ?_, ?_,
      hc, ?_⟩
    · rw [List.replicate_succ']
      exact hrun.snoc (step_receive_fromB hl _ _ hp)
    · simpa [handleMessage, fromB, createMessage] using hag
    · simpa using hl
    · simp [handleMessage, fromB, createMessage, activeTasks_handleTaskRequest, hroom, ht, hl, hc,
        List.replicate_succ']
      omega

/-- `handshakenB` after `100` TaskRequests of `agent-b`: a reachable table of `100` completed
rows, with `agent-b` Online and idle. -/
theorem completed_table :
    ∃ p, Reachable p ∧ p.sys.localAgentId = idA ∧ p.sys.activeTasks.length = maxTasks ∧
      (∀ t ∈ p.sys.activeTasks, t.status = .completed) ∧ bestAgent p.sys.agents ≠ none := by
  obtain ⟨q, hrun, hag, hloc, -, ht⟩ :=
    run_taskRequests (p := handshakenB) rfl (show ([] : List UInt8).length ≤ 1154 by decide) 100 (by decide)
  have h0 : handshakenB.sys.activeTasks = [] := rfl
  refine ⟨q, hrun.reachable reachable_handshakenB, hloc, by simp [ht, h0, maxTasks], ?_,
    by rw [hag]; decide⟩
  intro t htm
  simp only [ht, List.mem_append, List.mem_replicate] at htm
  rcases htm with htm | ⟨-, rfl⟩
  · simp [h0] at htm
  · rfl

theorem capacity_is_permanent_completedTable :
    ∃ p q, Reachable p ∧ (∀ t ∈ p.sys.activeTasks, t.status = .completed) ∧
      Run p [.receive (encodeMessage (fromB .taskRequest session1 [])), .tick 1] q ∧
      p.sys.activeTasks.length = maxTasks ∧ bestAgent q.sys.agents ≠ none ∧
      (q.sys.activeTasks.length = maxTasks ∧
        (∀ d u, bestAgent q.sys.agents ≠ none → submitTask d u q.clock q.sys = .failed queueFullText) ∧
        (∀ msg now, MessageType.ofInt? msg.type = some .taskRequest →
          (handleMessage msg now q.sys).activeTasks = q.sys.activeTasks)) := by
  obtain ⟨p, hp, hloc, hlen, hc, hb⟩ := completed_table
  have s1 := @step_receive_fromB p hloc .taskRequest session1 [] (Nat.zero_le _)
  have hrun := ((Run.nil p).snoc s1).snoc (a := .tick 1) rfl
  refine ⟨p, _, hp, hc, hrun, hlen, ?_, capacity_is_permanent hrun hlen⟩
  simpa [handleMessage, fromB, createMessage] using hb

/-- A reachable table of `100` completed rows, with `agent-b` Online and idle: every submit
fails with `Task queue full` and every TaskRequest is dropped, though no row is pending. -/
theorem queue_full_of_completed :
    ∃ p, Reachable p ∧ p.sys.activeTasks.length = maxTasks ∧
      (∀ t ∈ p.sys.activeTasks, t.status = .completed) ∧ bestAgent p.sys.agents ≠ none ∧
      (∀ d u, submitTask d u p.clock p.sys = .failed queueFullText) ∧
      (∀ msg now, MessageType.ofInt? msg.type = some .taskRequest →
        (handleMessage msg now p.sys).activeTasks = p.sys.activeTasks) := by
  obtain ⟨p, hp, -, hlen, hc, hb⟩ := completed_table
  have hfull := full_table_refuses hlen
  exact ⟨p, hp, hlen, hc, hb, fun d u => hfull.1 d u _ hb, hfull.2⟩

end DistributedAi
