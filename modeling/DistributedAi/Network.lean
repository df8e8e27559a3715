import DistributedAi.Submit

/-! Two processes `A` and `B` and the datagrams between them, each delivered any number of
times. What `handle_message` builds in answer is never sent, so no row turns Online from a
fresh start and no delegated task comes back. -/
namespace DistributedAi

open JsonObject

inductive Node
  | a | b
  deriving DecidableEq

/-- The two nodes' systems, the clock they share, the texts sent so far, and `A`'s submit calls. -/
structure Network where
  a : DistributedAiSystem
  b : DistributedAiSystem
  clock : ℤ
  inFlight : List (List UInt8)
  calls : List SubmitCall

namespace Network

def node (n : Network) : Node → DistributedAiSystem
  | .a => n.a
  | .b => n.b

def setNode (n : Network) : Node → DistributedAiSystem → Network
  | .a, s => { n with a := s }
  | .b, s => { n with b := s }

@[simp] theorem node_setNode (n : Network) (x : Node) (s : DistributedAiSystem) :
    (n.setNode x s).node x = s := by cases x <;> rfl

theorem node_setNode_ne (n : Network) {x y : Node} (h : x ≠ y) (s : DistributedAiSystem) :
    (n.setNode x s).node y = n.node y := by cases x <;> cases y <;> first | rfl | exact absurd rfl h

@[simp] theorem clock_setNode (n : Network) (x : Node) (s : DistributedAiSystem) :
    (n.setNode x s).clock = n.clock := by cases x <;> rfl

@[simp] theorem inFlight_setNode (n : Network) (x : Node) (s : DistributedAiSystem) :
    (n.setNode x s).inFlight = n.inFlight := by cases x <;> rfl

@[simp] theorem calls_setNode (n : Network) (x : Node) (s : DistributedAiSystem) :
    (n.setNode x s).calls = n.calls := by cases x <;> rfl

theorem a_setNode (n : Network) (x : Node) (s : DistributedAiSystem) :
    (n.setNode x s).a = if x = .a then s else n.a := by cases x <;> rfl

def init (idA idB : CStr 63) (clock : ℤ) : Network :=
  ⟨DistributedAiSystem.init idA, DistributedAiSystem.init idB, clock, [], []⟩

/-- `A` calls `anbs_distributed_ai_submit_task(d)`: its locked section, and the TaskRequest it
sends when it found an agent. -/
def submitA (n : Network) (d : List UInt8) (uuid : CStr 63) : Network :=
  match submitTask d uuid n.clock n.a with
  | .failed r => { n with calls := n.calls ++ [.returned (-1) r] }
  | .started row s sent =>
    { n with a := s, calls := n.calls ++ [.polling row 30],
             inFlight := n.inFlight ++ [encodeMessage sent.msg] }

end Network

/-- What can happen next: a node runs a coordination round, the `i`-th text in flight reaches a
node's listener, `A`'s `k`-th call checks its row, or time passes. -/
inductive NetAction
  | coordinate (x : Node)
  | deliver (i : ℕ) (x : Node)
  | poll (k : ℕ)
  | tick (seconds : ℕ)

def sentTexts (sends : List Send) : List (List UInt8) := sends.map fun s => encodeMessage s.msg

namespace Network

/-- One step; `none` when the step cannot happen: no `i`-th text, undefined behaviour in
`parse_message`, or a clock past `time_t`. -/
def step (n : Network) : NetAction → Option Network
  | .coordinate x =>
    let round := coordinationRound n.clock (n.node x)
    some { n.setNode x round.1 with inFlight := n.inFlight ++ sentTexts round.2 }
  | .deliver i x =>
    match n.inFlight[i]? with
    | none => none
    | some d => (receiveDatagram d n.clock (n.node x)).map (n.setNode x)
  | .poll k => some { n with calls := n.calls.modify (pollCall n.a) k }
  | .tick k => if n.clock + k ≤ int64Max then some { n with clock := n.clock + k } else none

end Network

inductive NetRun : Network → List NetAction → Network → Prop
  | nil (n : Network) : NetRun n [] n
  | snoc {n m k : Network} {acts : List NetAction} {a : NetAction} :
      NetRun n acts m → m.step a = some k → NetRun n (acts ++ [a]) k

/-! ## What a step does -/

section
variable {n n' : Network} {a : NetAction}

/-- Every step, by what it does to the network. -/
theorem Network.step_cases (h : n.step a = some n') :
    (∃ x, n' = { n.setNode x (coordinationRound n.clock (n.node x)).1 with
        inFlight := n.inFlight ++ sentTexts (coordinationRound n.clock (n.node x)).2 }) ∨
    (∃ d x s, d ∈ n.inFlight ∧ receiveDatagram d n.clock (n.node x) = some s ∧ n' = n.setNode x s) ∨
    (∃ k, n' = { n with calls := n.calls.modify (pollCall n.a) k }) ∨
    (∃ k : ℕ, n.clock + k ≤ int64Max ∧ n' = { n with clock := n.clock + k }) := by
  cases a with
  | coordinate x => cases h; exact .inl ⟨x, rfl⟩
  | deliver i x =>
    simp only [Network.step] at h
    split at h
    · cases h
    · rename_i d hd
      obtain ⟨s, hs, rfl⟩ := Option.map_eq_some'.1 h
      exact .inr (.inl ⟨d, x, s, List.getElem?_mem hd, hs, rfl⟩)
  | poll k => cases h; exact .inr (.inr (.inl ⟨k, rfl⟩))
  | tick k =>
    simp only [Network.step] at h
    split at h
    · cases h; exact .inr (.inr (.inr ⟨k, ‹_›, rfl⟩))
    · cases h

end

/-! ## What is sent -/

/-- A text in flight that arrives whole: the print of a well-formed message with a short payload,
of a type `allowed` admits. -/
def Carries (allowed : MessageType → Prop) (d : List UInt8) : Prop :=
  ∃ m, d = encodeMessage m ∧ m.WellFormed ∧ m.payload.bytes.length ≤ 1000 ∧
    ∃ t, MessageType.ofInt? m.type = some t ∧ allowed t

theorem length_heartbeatPayload_le {a : AiAgent}
    (h : int64Min ≤ a.taskQueueSize ∧ a.taskQueueSize ≤ int64Max) : (heartbeatPayload a).length ≤ 46 := by
  have := length_intDecimal_le h
  have h26 : (ascii "load=0.0;memory=0.0;tasks=").length = 26 := by decide
  simp only [heartbeatPayload, List.length_append, h26]
  omega

/-- A round sends the discovery broadcast and a heartbeat to each fresh Online row. -/
theorem mem_sends_coordinationRound {now : ℤ} {s : DistributedAiSystem} {snd : Send}
    (h : snd ∈ (coordinationRound now s).2) :
    snd.msg = createMessage s.localAgentId now CStr.empty .discovery [] discoveryPayload ∨
      ∃ a ∈ s.agents, a.status = .online ∧
        snd.msg = createMessage s.localAgentId now CStr.empty .heartbeat a.agentId.bytes (heartbeatPayload a) := by
  simp only [coordinationRound, List.mem_cons, List.mem_flatten, List.mem_map] at h
  rcases h with rfl | ⟨_, ⟨_, ⟨a, ha, rfl⟩, rfl⟩, hs⟩
  · exact .inl rfl
  · unfold sweepAgent at hs
    split at hs
    · split at hs
      · simp at hs
      · simp only [List.mem_singleton] at hs
        exact .inr ⟨a, ha, ‹_›, by rw [hs]⟩
    · simp at hs

/-- The texts a round sends from a system whose queues fit `int64_t`, at a time that fits
`time_t`, arrive whole, and are Discoveries or Heartbeats. -/
theorem carries_sentTexts {now : ℤ} {s : DistributedAiSystem}
    (hnow : int64Min ≤ now ∧ now ≤ int64Max)
    (hq : ∀ a ∈ s.agents, a.status = .online → int64Min ≤ a.taskQueueSize ∧ a.taskQueueSize ≤ int64Max) :
    ∀ d ∈ sentTexts (coordinationRound now s).2,
      Carries (fun t => t = .discovery ∨ (t = .heartbeat ∧ ∃ a ∈ s.agents, a.status = .online)) d := by
  intro d hd
  obtain ⟨snd, hsnd, rfl⟩ := List.mem_map.1 hd
  rcases mem_sends_coordinationRound hsnd with hm | ⟨a, ha, hon, hm⟩ <;> rw [hm]
  · refine ⟨_, rfl, createMessage_wellFormed _ _ _ _ _ hnow,
      le_trans (CStr.length_ofBytes_le _) (by decide), .discovery, rfl, .inl rfl⟩
  · refine ⟨_, rfl, createMessage_wellFormed _ _ _ _ _ hnow,
      le_trans (CStr.length_ofBytes_le _) (le_trans (length_heartbeatPayload_le (hq a ha hon)) (by decide)),
      .heartbeat, rfl, .inr ⟨rfl, a, ha, hon⟩⟩

theorem Carries.mono {allowed allowed' : MessageType → Prop} (h : ∀ t, allowed t → allowed' t)
    {d : List UInt8} (hd : Carries allowed d) : Carries allowed' d :=
  let ⟨m, hm, hwf, hp, t, ht, hall⟩ := hd
  ⟨m, hm, hwf, hp, t, ht, h t hall⟩

/-- A text that arrives whole is read back, and handled unless it is the node's own. -/
theorem receiveDatagram_of_carries {allowed : MessageType → Prop} {d : List UInt8} (h : Carries allowed d)
    {now : ℤ} {s s' : DistributedAiSystem} (hs : receiveDatagram d now s = some s') :
    ∃ m t, MessageType.ofInt? m.type = some t ∧ allowed t ∧ (s' = s ∨ s' = handleMessage m now s) := by
  obtain ⟨m, rfl, hwf, hp, t, ht, hall⟩ := h
  rw [receiveDatagram_encodeMessage hwf (hp.trans (by decide))] at hs
  refine ⟨m, t, ht, hall, ?_⟩
  split at hs <;> cases hs
  · exact .inl rfl
  · exact .inr rfl

/-! ## From a fresh start no row turns Online -/

def NoneOnline (s : DistributedAiSystem) : Prop := ∀ a ∈ s.agents, a.status ≠ .online

theorem bestAgentFrom_of_noneOnline {l : List AiAgent} (h : ∀ a ∈ l, a.status ≠ .online) (i : ℕ) :
    bestAgentFrom i none l = none := by
  induction l generalizing i with
  | nil => rfl
  | cons a l ih =>
    simp only [List.mem_cons, forall_eq_or_imp] at h
    simp [bestAgentFrom, h.1, ih h.2]

theorem submitTask_of_noneOnline {s : DistributedAiSystem} (h : NoneOnline s) (d : List UInt8)
    (u : CStr 63) (now : ℤ) : submitTask d u now s = .failed noAgentsText := by
  simp [submitTask, bestAgent, bestAgentFrom_of_noneOnline h]

theorem noneOnline_coordinationRound {s : DistributedAiSystem} (h : NoneOnline s) (now : ℤ) :
    NoneOnline (coordinationRound now s).1 := by
  intro a ha hon
  simp only [coordinationRound, DistributedAiSystem.withAgents, List.map_map, List.mem_map,
    Function.comp_apply] at ha
  obtain ⟨b, hb, rfl⟩ := ha
  exact h b hb (online_of_sweepAgent hon)

theorem noneOnline_handleMessage {s : DistributedAiSystem} (h : NoneOnline s) {m : AiMessage}
    (hm : MessageType.ofInt? m.type ≠ some .handshake ∧ MessageType.ofInt? m.type ≠ some .heartbeat)
    (now : ℤ) : NoneOnline (handleMessage m now s) := by
  intro a ha hon
  obtain ⟨i, hi⟩ := List.mem_iff_getElem?.1 ha
  have hoff : ∀ r, s.agents[i]? = some r → r.status ≠ .online := fun r hr => h r (List.getElem?_mem hr)
  rcases (turnsOnline_handleMessage ⟨hi, hon, hoff⟩).1 with ht | ht
  · exact hm.1 ht
  · exact hm.2 ht

/-- What holds after any schedule from two fresh nodes: the clock fits `time_t`, every text in
flight is a Discovery that arrives whole, and no row of either node is Online. -/
structure Undiscovered (n : Network) : Prop where
  clock_mem : int64Min ≤ n.clock ∧ n.clock ≤ int64Max
  inFlight : ∀ d ∈ n.inFlight, Carries (· = .discovery) d
  none_online : ∀ x, NoneOnline (n.node x)

theorem Undiscovered.setNode {n : Network} (hi : Undiscovered n) {x : Node} {s : DistributedAiSystem}
    (hs : NoneOnline s) : ∀ y, NoneOnline ((n.setNode x s).node y) := by
  intro y
  by_cases hxy : x = y
  · subst hxy; simpa using hs
  · rw [Network.node_setNode_ne _ hxy]; exact hi.none_online y

theorem Undiscovered.step {n n' : Network} {a : NetAction} (hi : Undiscovered n) (h : n.step a = some n') :
    Undiscovered n' := by
  rcases Network.step_cases h with ⟨x, rfl⟩ | ⟨d, x, s, hd, hs, rfl⟩ | ⟨k, rfl⟩ | ⟨k, hk, rfl⟩
  · have hon := hi.none_online x
    refine ⟨by simpa using hi.clock_mem, ?_, hi.setNode (noneOnline_coordinationRound hon _)⟩
    intro d hd
    rcases List.mem_append.1 (by simpa using hd) with hd | hd
    · exact hi.inFlight d hd
    · refine (carries_sentTexts hi.clock_mem (fun a ha h' => absurd h' (hon a ha)) d hd).mono ?_
      rintro t (rfl | ⟨-, a, ha, h'⟩)
      · rfl
      · exact absurd h' (hon a ha)
  · refine ⟨by simpa using hi.clock_mem, by simpa using hi.inFlight, hi.setNode ?_⟩
    obtain ⟨m, t, ht, rfl, rfl | rfl⟩ := receiveDatagram_of_carries (hi.inFlight d hd) hs
    · exact hi.none_online x
    · exact noneOnline_handleMessage (hi.none_online x) (by simp [ht]) _
  · exact ⟨hi.clock_mem, hi.inFlight, hi.none_online⟩
  · exact ⟨⟨by have := hi.clock_mem.1; show int64Min ≤ n.clock + k; omega, hk⟩, hi.inFlight,
      hi.none_online⟩

theorem Undiscovered.run {n n' : Network} {acts : List NetAction} (hi : Undiscovered n)
    (h : NetRun n acts n') : Undiscovered n' := by
  induction h with
  | nil => exact hi
  | snoc _ hs ih => exact ih.step hs

/-- From two freshly started nodes, after any schedule no row of either registry is Online, so
every submit of `A` fails with `No available AI agents in distributed network`. -/
theorem discovery_never_establishes_peer {idA idB : CStr 63} {c : ℤ}
    (hc : int64Min ≤ c ∧ c ≤ int64Max) {acts : List NetAction} {n : Network}
    (hrun : NetRun (Network.init idA idB c) acts n) :
    (∀ a ∈ n.a.agents, a.status ≠ .online) ∧ (∀ a ∈ n.b.agents, a.status ≠ .online) ∧
      ∀ d u, submitTask d u n.clock n.a = .failed noAgentsText := by
  have h0 : Undiscovered (Network.init idA idB c) := by
    refine ⟨hc, fun _ h => absurd h (List.not_mem_nil _), ?_⟩
    intro x
    cases x <;> exact fun _ h => absurd h (List.not_mem_nil _)
  have hi := h0.run hrun
  exact ⟨hi.none_online .a, hi.none_online .b, fun d u => submitTask_of_noneOnline (hi.none_online .a) d u _⟩

def discoveryOfA : AiMessage := createMessage idA 0 CStr.empty .discovery [] discoveryPayload

theorem deliver_encodeMessage {n : Network} {i : ℕ} {m : AiMessage} {x : Node}
    (hi : n.inFlight[i]? = some (encodeMessage m)) (hwf : m.WellFormed)
    (hp : m.payload.bytes.length ≤ 1154) (hne : m.senderId ≠ (n.node x).localAgentId) :
    n.step (.deliver i x) = some (n.setNode x (handleMessage m n.clock (n.node x))) := by
  simp only [Network.step, hi, receiveDatagram_encodeMessage hwf hp, hne, if_false, Option.map_some']

theorem discovery_never_establishes_peer_run :
    ∃ n, NetRun (Network.init idA idB 0) [.coordinate .a, .deliver 0 .b] n ∧ n.b.agents.length = 1 ∧
      ((∀ a ∈ n.a.agents, a.status ≠ .online) ∧ (∀ a ∈ n.b.agents, a.status ≠ .online) ∧
        ∀ d u, submitTask d u n.clock n.a = .failed noAgentsText) := by
  have s1 : (Network.init idA idB 0).step (.coordinate .a) =
      some ⟨(coordinationRound 0 (DistributedAiSystem.init idA)).1, DistributedAiSystem.init idB, 0,
        [encodeMessage discoveryOfA], []⟩ := rfl
  have hrun := ((NetRun.nil _).snoc s1).snoc (deliver_encodeMessage (i := 0) (x := .b) rfl
    (createMessage_wellFormed _ _ _ _ _ (by decide)) (le_trans (CStr.length_ofBytes_le _) (by decide))
    (by decide))
  exact ⟨_, hrun, rfl, discovery_never_establishes_peer (by decide) hrun⟩

/-! ## A delegated task never comes back -/

theorem mem_updateFirst {α : Type} {p : α → Bool} {f : α → α} {l : List α} {b : α}
    (h : b ∈ updateFirst p f l) : b ∈ l ∨ ∃ a ∈ l, b = f a := by
  induction l with
  | nil => exact absurd h (List.not_mem_nil _)
  | cons a l ih =>
    unfold updateFirst at h
    split at h <;> simp only [List.mem_cons] at h
    · rcases h with rfl | h
      · exact .inr ⟨a, List.mem_cons_self _ _, rfl⟩
      · exact .inl (List.mem_cons_of_mem _ h)
    · rcases h with rfl | h
      · exact .inl (List.mem_cons_self _ _)
      · rcases ih h with h | ⟨c, hc, rfl⟩
        · exact .inl (List.mem_cons_of_mem _ h)
        · exact .inr ⟨c, List.mem_cons_of_mem _ hc, rfl⟩

theorem mem_modify {α : Type} {f : α → α} {l : List α} {k : ℕ} {b : α} (h : b ∈ l.modify f k) :
    b ∈ l ∨ ∃ a ∈ l, b = f a := by
  obtain ⟨i, hi⟩ := List.mem_iff_getElem?.1 h
  rw [List.getElem?_modify, Option.map_eq_map, Option.map_eq_some'] at hi
  obtain ⟨a, ha, rfl⟩ := hi
  split
  · exact .inr ⟨a, List.getElem?_mem ha, rfl⟩
  · exact .inl (List.getElem?_mem ha)

@[simp] theorem taskQueueSize_sweepAgent (localId : CStr 63) (now : ℤ) (a : AiAgent) :
    (sweepAgent localId now a).1.taskQueueSize = a.taskQueueSize := by
  rw [sweepAgent_fst]

def QueuesFit (l : List AiAgent) : Prop :=
  ∀ a ∈ l, int64Min ≤ a.taskQueueSize ∧ a.taskQueueSize ≤ int64Max

theorem queuesFit_updateFirst {p : AiAgent → Bool} {f : AiAgent → AiAgent}
    (hf : ∀ a, (f a).taskQueueSize = a.taskQueueSize) {l : List AiAgent} (h : QueuesFit l) :
    QueuesFit (updateFirst p f l) := by
  intro b hb
  rcases mem_updateFirst hb with hb | ⟨a, ha, rfl⟩
  · exact h b hb
  · rw [hf]; exact h a ha

theorem queuesFit_handleMessage {s : DistributedAiSystem} (h : QueuesFit s.agents) (m : AiMessage)
    (now : ℤ) : QueuesFit (handleMessage m now s).agents := by
  unfold handleMessage
  split
  · unfold handleDiscovery
    split
    · exact queuesFit_updateFirst (by intro; rfl) h
    · split
      · intro b hb
        rcases List.mem_append.1 hb with hb | hb
        · exact h b hb
        · rw [List.mem_singleton.1 hb]
          show int64Min ≤ 0 ∧ 0 ≤ int64Max
          decide
      · exact h
  · exact queuesFit_updateFirst (by intro; rfl) h
  · simpa using h
  · simpa using h
  · exact queuesFit_updateFirst (by intro; rfl) h
  · exact h

theorem getElem?_activeTasks_handleMessage {s : DistributedAiSystem} {m : AiMessage}
    (hm : MessageType.ofInt? m.type ≠ some .taskResponse) (now : ℤ) {r : ℕ} {t : TaskSession}
    (hr : s.activeTasks[r]? = some t) : (handleMessage m now s).activeTasks[r]? = some t := by
  rcases @activeTasks_handleMessage s m now with h | ⟨-, -, h⟩ | ⟨ht, -⟩
  · rw [h, hr]
  · rw [h, List.getElem?_append_left (List.getElem?_eq_some_iff.1 hr).1, hr]
  · exact absurd ht hm

theorem pollCall_of_not_completed {s : DistributedAiSystem} {row k : ℕ} {t : TaskSession}
    (hr : s.activeTasks[row]? = some t) (ht : t.status ≠ .completed) :
    pollCall s (.polling row k) = .returned (-1) timeoutText ∨
      pollCall s (.polling row k) = .polling row (k - 1) := by
  cases k <;> simp [pollCall, hr, ht]

/-- What holds after any schedule once `A` has delegated, as long as no TaskResponse is in flight:
the clock fits `time_t`, queues fit `int64_t`, every text in flight arrives whole and is no
TaskResponse, and every call of `A` has failed or polls a row that is not completed. -/
structure Undelivered (n : Network) : Prop where
  clock_mem : int64Min ≤ n.clock ∧ n.clock ≤ int64Max
  queues : ∀ x, QueuesFit (n.node x).agents
  inFlight : ∀ d ∈ n.inFlight, Carries (· ≠ .taskResponse) d
  calls : ∀ c ∈ n.calls, (∃ r, c = .returned (-1) r) ∨
    ∃ row k t, c = .polling row k ∧ n.a.activeTasks[row]? = some t ∧ t.status ≠ .completed

theorem Undelivered.calls_of_rows {n : Network} (hi : Undelivered n) {s : DistributedAiSystem}
    (hs : ∀ (r : ℕ) (t : TaskSession), n.a.activeTasks[r]? = some t → s.activeTasks[r]? = some t) :
    ∀ c ∈ n.calls, (∃ r, c = .returned (-1) r) ∨
      ∃ row k t, c = .polling row k ∧ s.activeTasks[row]? = some t ∧ t.status ≠ .completed := by
  intro c hc
  rcases hi.calls c hc with h | ⟨row, k, t, rfl, hr, ht⟩
  · exact .inl h
  · exact .inr ⟨row, k, t, rfl, hs _ _ hr, ht⟩

theorem Undelivered.setNode {n : Network} (hi : Undelivered n) {x : Node} {s : DistributedAiSystem}
    (hq : QueuesFit s.agents) : ∀ y, QueuesFit ((n.setNode x s).node y).agents := by
  intro y
  by_cases hxy : x = y
  · subst hxy; simpa using hq
  · rw [Network.node_setNode_ne _ hxy]; exact hi.queues y

theorem Undelivered.step {n n' : Network} {a : NetAction} (hi : Undelivered n) (h : n.step a = some n') :
    Undelivered n' := by
  rcases Network.step_cases h with ⟨x, rfl⟩ | ⟨d, x, s, hd, hs, rfl⟩ | ⟨k, rfl⟩ | ⟨k, hk, rfl⟩
  · refine ⟨by simpa using hi.clock_mem, hi.setNode ?_, ?_, ?_⟩
    · intro b hb
      simp only [coordinationRound, DistributedAiSystem.withAgents, List.map_map, List.mem_map,
        Function.comp_apply] at hb
      obtain ⟨a, ha, rfl⟩ := hb
      rw [taskQueueSize_sweepAgent]
      exact hi.queues x a ha
    · intro d hd
      rcases List.mem_append.1 (by simpa using hd) with hd | hd
      · exact hi.inFlight d hd
      · refine (carries_sentTexts hi.clock_mem (fun a ha _ => hi.queues x a ha) d hd).mono ?_
        rintro t (rfl | ⟨rfl, -⟩) <;> decide
    · simp only [Network.calls_setNode, Network.a_setNode]
      split
      · subst x; exact hi.calls_of_rows fun r t h => by simpa using h
      · exact hi.calls
  · obtain ⟨m, t, ht, hall, hs'⟩ := receiveDatagram_of_carries (hi.inFlight d hd) hs
    have hm : MessageType.ofInt? m.type ≠ some .taskResponse := by rw [ht]; simpa using hall
    have hrows : ∀ (r : ℕ) (t : TaskSession), (n.node x).activeTasks[r]? = some t →
        s.activeTasks[r]? = some t := by
      rcases hs' with rfl | rfl
      · exact fun _ _ h => h
      · exact fun _ _ h => getElem?_activeTasks_handleMessage hm _ h
    refine ⟨by simpa using hi.clock_mem, hi.setNode ?_, by simpa using hi.inFlight, ?_⟩
    · rcases hs' with rfl | rfl
      · exact hi.queues x
      · exact queuesFit_handleMessage (hi.queues x) _ _
    · simp only [Network.calls_setNode, Network.a_setNode]
      split
      · subst x; exact hi.calls_of_rows hrows
      · exact hi.calls
  · refine ⟨hi.clock_mem, hi.queues, hi.inFlight, fun c hc => ?_⟩
    rcases mem_modify hc with hc | ⟨c0, hc0, rfl⟩
    · exact hi.calls c hc
    · rcases hi.calls c0 hc0 with ⟨r, rfl⟩ | ⟨row, k, t, rfl, hr, ht⟩
      · exact .inl ⟨r, rfl⟩
      · rcases pollCall_of_not_completed (k := k) hr ht with h | h <;> rw [h]
        · exact .inl ⟨_, rfl⟩
        · exact .inr ⟨row, _, t, rfl, hr, ht⟩
  · exact ⟨⟨by have := hi.clock_mem.1; show int64Min ≤ n.clock + k; omega, hk⟩, hi.queues,
      hi.inFlight, hi.calls⟩

theorem Undelivered.run {n n' : Network} {acts : List NetAction} (hi : Undelivered n)
    (h : NetRun n acts n') : Undelivered n' := by
  induction h with
  | nil => exact hi
  | snoc _ hs ih => exact ih.step hs

/-- `A` knows `B` Online with an empty queue, and nothing is in flight. -/
def beforeDelegation : Network := ⟨handshakenB.sys, DistributedAiSystem.init idB, 0, [], []⟩

/-- `A` has just delegated `ls` to `B` for session `session-1`. -/
def delegatedToB : Network := beforeDelegation.submitA (ascii "ls") session1

def delegationRequest : AiMessage :=
  { createMessage idA 0 session1 .taskRequest idB.bytes (ascii "ls") with
    sessionId := CStr.ofBytes 63 session1.bytes }

theorem inFlight_delegatedToB : delegatedToB.inFlight = [encodeMessage delegationRequest] := by
  decide

theorem undelivered_delegatedToB : Undelivered delegatedToB where
  clock_mem := by decide
  queues := by intro x; cases x <;> (unfold QueuesFit; decide)
  inFlight := by
    rw [inFlight_delegatedToB]
    intro d hd
    rw [List.mem_singleton.1 hd]
    exact ⟨delegationRequest, rfl, ⟨by decide, by decide, rfl⟩, by decide, .taskRequest, rfl, by decide⟩
  calls := by
    intro c hc
    rw [show delegatedToB.calls = [.polling 0 30] from rfl, List.mem_singleton] at hc
    exact .inr ⟨0, 30, _, hc, rfl, by decide⟩

/-- `A` knows `B` Online with room in its queue, both tables have room, and `A` has just
delegated `ls` to `B`; under no schedule does that call, or any other call of `A`, return `0`. -/
theorem delegation_never_answered :
    (∃ row ∈ beforeDelegation.a.agents, row.agentId = idB ∧ row.status = .online ∧
        row.taskQueueSize < 5) ∧
      beforeDelegation.a.activeTasks.length < maxTasks ∧
      beforeDelegation.b.activeTasks.length < maxTasks ∧
      ∀ (acts : List NetAction) (n : Network), NetRun delegatedToB acts n →
        ∀ (k : ℕ) (res : List UInt8), n.calls[k]? ≠ some (.returned 0 res) := by
  refine ⟨by decide, by decide, by decide, fun acts n hrun k res h => ?_⟩
  rcases (undelivered_delegatedToB.run hrun).calls _ (List.getElem?_mem h) with ⟨r, hr⟩ |
    ⟨row, k, t, hc, -⟩
  · cases hr
  · cases hc

theorem delegation_never_answered_run :
    ∃ n, NetRun delegatedToB [.deliver 0 .b, .poll 0] n ∧ n.b.activeTasks.length = 1 ∧
      ∀ (k : ℕ) (res : List UInt8), n.calls[k]? ≠ some (.returned 0 res) := by
  have s1 := deliver_encodeMessage (n := delegatedToB) (i := 0) (x := .b) (by rw [inFlight_delegatedToB]; rfl)
    ⟨by decide, by decide, rfl⟩ (by decide) (by decide)
  have hrun := ((NetRun.nil _).snoc s1).snoc (a := .poll 0) rfl
  exact ⟨_, hrun, rfl, delegation_never_answered.2.2.2 _ _ hrun⟩

end DistributedAi
