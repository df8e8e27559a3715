import DistributedAi.System
import DistributedAi.Codec

/-! One process running `distributed_ai.c` among arbitrary peers. A step is one locked section
of one thread; the peers may deliver any datagram at any time. -/
namespace DistributedAi

/-- A process: `g_ai_system`, the clock, and the submit calls in the order they were made. -/
structure Process where
  sys : DistributedAiSystem
  clock : ℤ
  calls : List SubmitCall

/-- What can happen next: a datagram reaches the discovery socket, the coordination thread runs
a round, a caller enters `submit` (with the session id `uuid_generate` gives it), a pending call
checks its row, or time passes. -/
inductive Action
  | receive (datagram : List UInt8)
  | coordinate
  | submit (description : List UInt8) (uuid : CStr 63)
  | poll (call : ℕ)
  | tick (seconds : ℕ)

namespace Process

def init (localAgentId : CStr 63) (clock : ℤ) : Process :=
  ⟨DistributedAiSystem.init localAgentId, clock, []⟩

/-- The process after `submit`'s locked section: a new call, and the new row if one was made. -/
def startCall (p : Process) : SubmitStart → Process
  | .failed r => { p with calls := p.calls ++ [.returned (-1) r] }
  | .started row s _ => { p with sys := s, calls := p.calls ++ [.polling row 30] }

/-- One step; `none` when it runs into undefined behaviour. What the process sends goes to the
environment and is not kept. -/
def step (p : Process) : Action → Option Process
  | .receive d => (receiveDatagram d p.clock p.sys).map fun s => { p with sys := s }
  | .coordinate => some { p with sys := (coordinationRound p.clock p.sys).1 }
  | .submit d u => some (p.startCall (submitTask d u p.clock p.sys))
  | .poll k => some { p with calls := p.calls.modify (pollCall p.sys) k }
  | .tick n => some { p with clock := p.clock + n }

end Process

inductive Reachable : Process → Prop
  | init (localAgentId : CStr 63) (clock : ℤ) : Reachable (Process.init localAgentId clock)
  | step {p q : Process} {a : Action} : Reachable p → p.step a = some q → Reachable q

/-- A run: the actions taken one after the other, each from the state the last one left. -/
inductive Run : Process → List Action → Process → Prop
  | nil (p : Process) : Run p [] p
  | snoc {p q r : Process} {acts : List Action} {a : Action} :
      Run p acts q → q.step a = some r → Run p (acts ++ [a]) r

theorem Run.reachable {p q : Process} {acts : List Action} (h : Run p acts q) (hp : Reachable p) :
    Reachable q := by
  induction h with
  | nil => exact hp
  | snoc _ hs ih => exact .step ih hs

/-- The listener reads `msg` from datagram `d` and hands it to `handle_message`: the text parses
and the message is not the process's own. -/
def Process.Handles (p : Process) (d : List UInt8) (msg : AiMessage) : Prop :=
  parseMessage (CStr.prefixOf (d.take (maxMessageSize - 1))) = .ok msg ∧
    msg.senderId ≠ p.sys.localAgentId

/-! ## What each step does -/

section
variable {p q : Process} {s s' : DistributedAiSystem} {msg : AiMessage} {now : ℤ}

theorem receiveDatagram_cases {d : List UInt8} (h : receiveDatagram d now s = some s') :
    s' = s ∨ ∃ msg, parseMessage (CStr.prefixOf (d.take (maxMessageSize - 1))) = .ok msg ∧
      msg.senderId ≠ s.localAgentId ∧ s' = handleMessage msg now s := by
  simp only [receiveDatagram] at h
  split at h
  · exact .inl (Option.some.inj h).symm
  · split at h
    · exact .inl (Option.some.inj h).symm
    · cases h
    · rename_i msg' hp
      split at h
      · exact .inl (Option.some.inj h).symm
      · exact .inr ⟨msg', hp, ‹_›, (Option.some.inj h).symm⟩

@[simp] theorem localAgentId_handleMessage :
    (handleMessage msg now s).localAgentId = s.localAgentId := by
  unfold handleMessage handleDiscovery handleHandshake handleHeartbeat handleTaskRequest
    handleTaskResponse
  split <;> (try split) <;> (try split) <;> rfl

/-- A printed message with a short payload arrives whole and is read back. -/
theorem parseMessage_received (h : msg.WellFormed) (hp : msg.payload.bytes.length ≤ 1154) :
    parseMessage (CStr.prefixOf ((encodeMessage msg).take (maxMessageSize - 1))) = .ok msg := by
  rw [List.take_of_length_le (encodeMessage_fits h hp),
    CStr.prefixOf_of_nul_free (nul_free_encodeMessage msg), parseMessage_encodeMessage h]

theorem receiveDatagram_encodeMessage (h : msg.WellFormed) (hp : msg.payload.bytes.length ≤ 1154) :
    receiveDatagram (encodeMessage msg) now s =
      if msg.senderId = s.localAgentId then some s else some (handleMessage msg now s) := by
  have hne : (encodeMessage msg).take (maxMessageSize - 1) ≠ [] := by
    rw [List.take_of_length_le (encodeMessage_fits h hp)]
    exact List.ne_nil_of_length_pos (by rw [length_encodeMessage]; omega)
  simp only [receiveDatagram, hne, if_false, parseMessage_received h hp]

theorem step_receive_encodeMessage (h : msg.WellFormed) (hp : msg.payload.bytes.length ≤ 1154)
    (hne : msg.senderId ≠ p.sys.localAgentId) :
    p.step (.receive (encodeMessage msg)) = some { p with sys := handleMessage msg p.clock p.sys } := by
  simp only [Process.step, receiveDatagram_encodeMessage h hp, hne, if_false, Option.map_some']

theorem step_receive_of_handles {d : List UInt8} (h : p.Handles d msg) :
    p.step (.receive d) = some { p with sys := handleMessage msg p.clock p.sys } := by
  have hne : d.take (maxMessageSize - 1) ≠ [] := fun h0 => by
    have h1 := h.1
    rw [h0] at h1
    cases h1
  simp only [Process.step, receiveDatagram, hne, if_false, h.1, h.2, Option.map_some']

/-- Every step, by what it does to the whole process. -/
theorem step_cases {a : Action} (h : p.step a = some q) :
    (∃ d, a = .receive d ∧ q = p) ∨
    (∃ d msg, a = .receive d ∧ p.Handles d msg ∧ q = { p with sys := handleMessage msg p.clock p.sys }) ∨
    (a = .coordinate ∧ q = { p with sys := (coordinationRound p.clock p.sys).1 }) ∨
    (∃ d u, a = .submit d u ∧ q = p.startCall (submitTask d u p.clock p.sys)) ∨
    (∃ k, a = .poll k ∧ q = { p with calls := p.calls.modify (pollCall p.sys) k }) ∨
    (∃ n, a = .tick n ∧ q = { p with clock := p.clock + n }) := by
  cases a with
  | receive d =>
    simp only [Process.step, Option.map_eq_some'] at h
    obtain ⟨s', hs', rfl⟩ := h
    rcases receiveDatagram_cases hs' with rfl | ⟨msg, hparse, hne, rfl⟩
    · exact .inl ⟨d, rfl, rfl⟩
    · exact .inr (.inl ⟨d, msg, rfl, ⟨hparse, hne⟩, rfl⟩)
  | coordinate => cases h; exact .inr (.inr (.inl ⟨rfl, rfl⟩))
  | submit d u => cases h; exact .inr (.inr (.inr (.inl ⟨d, u, rfl, rfl⟩)))
  | poll k => cases h; exact .inr (.inr (.inr (.inr (.inl ⟨k, rfl, rfl⟩))))
  | tick n => cases h; exact .inr (.inr (.inr (.inr (.inr ⟨n, rfl, rfl⟩))))

end

/-! ## Two agents

Runs on fixed inputs below use a process `agent-a` and a peer `agent-b`. -/

def idA : CStr 63 := CStr.lit "agent-a" (by decide) (by decide)

def idB : CStr 63 := CStr.lit "agent-b" (by decide) (by decide)

def session1 : CStr 63 := CStr.lit "session-1" (by decide) (by decide)

/-- What `agent-b` sends at time 0: `create_message(type, "agent-a", payload, &msg)` with session
id `uuid`. -/
def fromB (type : MessageType) (uuid : CStr 63) (payload : List UInt8) : AiMessage :=
  createMessage idB 0 uuid type (ascii "agent-a") payload

theorem fromB_wellFormed (type : MessageType) (uuid : CStr 63) (payload : List UInt8) :
    (fromB type uuid payload).WellFormed :=
  createMessage_wellFormed _ _ _ _ _ (by decide)

theorem step_receive_fromB {p : Process} (hloc : p.sys.localAgentId = idA) (type : MessageType)
    (uuid : CStr 63) {payload : List UInt8} (hp : payload.length ≤ 1154) :
    p.step (.receive (encodeMessage (fromB type uuid payload))) =
      some { p with sys := handleMessage (fromB type uuid payload) p.clock p.sys } :=
  step_receive_encodeMessage (fromB_wellFormed type uuid payload)
    (le_trans (CStr.length_ofBytes_le _) hp)
    (by rw [hloc]; show CStr.ofBytes 63 idB.bytes ≠ idA; decide)

end DistributedAi
