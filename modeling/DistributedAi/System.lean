import DistributedAi.Message

/-! The state `distributed_ai.c` keeps behind `g_ai_system` and the code that changes it, one
function of the state per locked section. -/
namespace DistributedAi

/-! `MAX_AI_AGENTS`, the length of `active_tasks`, `COMM_PORT_BASE` and `DISCOVERY_PORT`. -/

def maxAiAgents : ℕ := 10

def maxTasks : ℕ := 100

def commPortBase : ℤ := 9877

def discoveryPort : ℤ := 9876

inductive AgentStatus
  | offline | discovering | connecting | online | busy | error
  deriving DecidableEq, Repr

/-- `ai_agent_t`, with the fields the modelled code reads or writes. -/
structure AiAgent where
  agentId : CStr 63
  ipAddress : CStr 63
  port : ℤ
  status : AgentStatus
  lastSeen : ℤ
  taskQueueSize : ℤ
  capabilities : CStr 511
  deriving DecidableEq

def AiAgent.zero : AiAgent := ⟨CStr.empty, CStr.empty, 0, .offline, 0, 0, CStr.empty⟩

/-- The three strings `strcpy` ever writes into `task_session_t.status`. -/
inductive TaskStatus
  | submitted | processing | completed
  deriving DecidableEq, Repr

structure TaskSession where
  sessionId : CStr 63
  taskDescription : CStr 511
  assignedAgent : CStr 63
  created : ℤ
  started : ℤ
  completed : ℤ
  priority : ℤ
  result : CStr 2047
  status : TaskStatus
  deriving DecidableEq

/-- `distributed_ai_system_t`: the rows `agents[0..agent_count)` and
`active_tasks[0..task_count)`, with the array bounds as fields. -/
structure DistributedAiSystem where
  agents : List AiAgent
  agents_le : agents.length ≤ maxAiAgents
  localAgentId : CStr 63
  activeTasks : List TaskSession
  tasks_le : activeTasks.length ≤ maxTasks
  deriving DecidableEq

/-- The system `anbs_distributed_ai_init` starts: no rows, the generated `local_agent_id`. -/
def DistributedAiSystem.init (localAgentId : CStr 63) : DistributedAiSystem :=
  ⟨[], Nat.zero_le _, localAgentId, [], Nat.zero_le _⟩

/-! ## Scans -/

/-- The scan `for (i = 0; i < count; i++) if (p(row[i])) { f(&row[i]); break; }`. -/
def updateFirst {α : Type} (p : α → Bool) (f : α → α) : List α → List α
  | [] => []
  | a :: as => if p a then f a :: as else a :: updateFirst p f as

@[simp] theorem length_updateFirst {α : Type} (p : α → Bool) (f : α → α) (l : List α) :
    (updateFirst p f l).length = l.length := by
  induction l with
  | nil => rfl
  | cons a l ih => by_cases h : p a <;> simp [updateFirst, h, ih]

/-! ## `handle_message` -/

def DistributedAiSystem.withAgents (s : DistributedAiSystem) (agents : List AiAgent)
    (h : agents.length ≤ maxAiAgents) : DistributedAiSystem :=
  { s with agents := agents, agents_le := h }

def DistributedAiSystem.withTasks (s : DistributedAiSystem) (tasks : List TaskSession)
    (h : tasks.length ≤ maxTasks) : DistributedAiSystem :=
  { s with activeTasks := tasks, tasks_le := h }

def discoveredAgent (msg : AiMessage) (count : ℕ) (now : ℤ) : AiAgent :=
  { AiAgent.zero with
    agentId := CStr.ofBytes 63 msg.senderId.bytes
    port := commPortBase + count
    status := .discovering
    lastSeen := now }

/-- `MSG_TYPE_DISCOVERY`: find the sender's row, or add one while there is room, and stamp
`last_seen`. The handshake answer `create_message` builds here is never sent. -/
def handleDiscovery (msg : AiMessage) (now : ℤ) (s : DistributedAiSystem) : DistributedAiSystem :=
  if s.agents.any (·.agentId = msg.senderId) then
    s.withAgents (updateFirst (·.agentId = msg.senderId) (fun a => { a with lastSeen := now }) s.agents)
      (by simpa using s.agents_le)
  else if h : s.agents.length < maxAiAgents then
    s.withAgents (s.agents ++ [discoveredAgent msg (s.agents.length + 1) now]) (by simpa using h)
  else s

/-- `MSG_TYPE_HANDSHAKE`: the sender's row goes Online, with its capabilities. -/
def handleHandshake (msg : AiMessage) (now : ℤ) (s : DistributedAiSystem) : DistributedAiSystem :=
  s.withAgents (updateFirst (·.agentId = msg.senderId)
    (fun a => { a with status := .online, lastSeen := now,
                       capabilities := CStr.ofBytes 511 msg.payload.bytes }) s.agents)
    (by simpa using s.agents_le)

/-- `MSG_TYPE_HEARTBEAT`: the sender's row goes Online and is stamped. -/
def handleHeartbeat (msg : AiMessage) (now : ℤ) (s : DistributedAiSystem) : DistributedAiSystem :=
  s.withAgents (updateFirst (·.agentId = msg.senderId)
    (fun a => { a with lastSeen := now, status := .online }) s.agents) (by simpa using s.agents_le)

/-- The session row a TaskRequest creates. Execution is the placeholder `snprintf`, so the row
is stored completed; its `processing` status is overwritten inside the same locked section. -/
def requestedTask (msg : AiMessage) (localId : CStr 63) (now : ℤ) : TaskSession :=
  { sessionId := CStr.ofBytes 63 msg.sessionId.bytes
    taskDescription := CStr.ofBytes 511 msg.payload.bytes
    assignedAgent := CStr.ofBytes 63 localId.bytes
    created := msg.timestamp
    started := now
    completed := now
    priority := 5
    result := CStr.ofBytes 2047
      (ascii "Task processed by " ++ localId.bytes ++ ascii ": " ++ msg.payload.bytes)
    status := .completed }

/-- `MSG_TYPE_TASK_REQUEST`: append a session row while `task_count < 100`. The TaskResponse
`create_message` builds here is never sent. -/
def handleTaskRequest (msg : AiMessage) (now : ℤ) (s : DistributedAiSystem) : DistributedAiSystem :=
  if h : s.activeTasks.length < maxTasks then
    s.withTasks (s.activeTasks ++ [requestedTask msg s.localAgentId now]) (by simpa using h)
  else s

def resolvedTask (msg : AiMessage) (now : ℤ) (t : TaskSession) : TaskSession :=
  { t with result := CStr.ofBytes 2047 msg.payload.bytes, completed := now, status := .completed }

/-- `MSG_TYPE_TASK_RESPONSE`: the first row with the message's session id takes the result and
is marked completed, whatever its status was. -/
def handleTaskResponse (msg : AiMessage) (now : ℤ) (s : DistributedAiSystem) : DistributedAiSystem :=
  s.withTasks (updateFirst (·.sessionId = msg.sessionId) (resolvedTask msg now) s.activeTasks)
    (by simpa using s.tasks_le)

def MessageType.ofInt? (n : ℤ) : Option MessageType :=
  [MessageType.discovery, .handshake, .taskRequest, .taskResponse, .statusUpdate, .heartbeat,
    .capabilityQuery, .capabilityResponse, .coordination, .shutdown].find? (·.toInt = n)

@[simp] theorem MessageType.ofInt?_toInt (t : MessageType) : MessageType.ofInt? t.toInt = some t := by
  cases t <;> rfl

/-- `handle_message(msg)` at `time(NULL) = now`: the `switch` on the type; other types only log. -/
def handleMessage (msg : AiMessage) (now : ℤ) (s : DistributedAiSystem) : DistributedAiSystem :=
  match MessageType.ofInt? msg.type with
  | some .discovery => handleDiscovery msg now s
  | some .handshake => handleHandshake msg now s
  | some .taskRequest => handleTaskRequest msg now s
  | some .taskResponse => handleTaskResponse msg now s
  | some .heartbeat => handleHeartbeat msg now s
  | _ => s

/-! ## The discovery thread -/

/-- What one pass of `discovery_thread`'s loop does with a received datagram: `recvfrom` keeps at
most `MAX_MESSAGE_SIZE - 1` bytes, `parse_message` reads the C string they start, and a
message from another agent goes to `handle_message`. `none` is undefined behaviour in
`parse_message`. -/
def receiveDatagram (datagram : List UInt8) (now : ℤ) (s : DistributedAiSystem) :
    Option DistributedAiSystem :=
  let buffer := datagram.take (maxMessageSize - 1)
  if buffer = [] then some s
  else
    match parseMessage (CStr.prefixOf buffer) with
    | .rejected => some s
    | .undefined => none
    | .ok msg => if msg.senderId = s.localAgentId then some s else some (handleMessage msg now s)

/-! ## The coordination thread -/

structure Send where
  agent : AiAgent
  msg : AiMessage
  deriving DecidableEq

def discoveryPayload : List UInt8 :=
  ascii "capabilities=terminal,ai_commands,memory_search,file_analysis;status=online"

/-- `broadcast_agent`: zeroed, with address `255.255.255.255` and `DISCOVERY_PORT`. -/
def broadcastAgent : AiAgent :=
  { AiAgent.zero with
    ipAddress := CStr.ofBytes 63 (ascii "255.255.255.255")
    port := discoveryPort }

/-- The heartbeat payload `"load=%.1f;memory=%.1f;tasks=%d"`; `cpu_load` and `memory_usage` are
written nowhere, so they print as `0.0`. -/
def heartbeatPayload (a : AiAgent) : List UInt8 :=
  ascii "load=0.0;memory=0.0;tasks=" ++ JsonObject.intDecimal a.taskQueueSize

/-- One row of the heartbeat loop: an Online row silent for more than 30 s goes Offline, a fresh
one is sent a heartbeat; other rows are left alone. -/
def sweepAgent (localId : CStr 63) (now : ℤ) (a : AiAgent) : AiAgent × List Send :=
  if a.status = .online then
    if now - a.lastSeen > 30 then ({ a with status := .offline }, [])
    else (a, [⟨a, createMessage localId now CStr.empty .heartbeat a.agentId.bytes (heartbeatPayload a)⟩])
  else (a, [])

/-- One round of `coordination_thread`: the discovery broadcast, then the locked heartbeat
loop. The health display and the 10 s sleep change no state. -/
def coordinationRound (now : ℤ) (s : DistributedAiSystem) : DistributedAiSystem × List Send :=
  let swept := s.agents.map (sweepAgent s.localAgentId now)
  (s.withAgents (swept.map Prod.fst) (by simpa [swept] using s.agents_le),
    ⟨broadcastAgent, createMessage s.localAgentId now CStr.empty .discovery [] discoveryPayload⟩ ::
      (swept.map Prod.snd).flatten)

/-! ## `anbs_distributed_ai_submit_task` -/

/-- The selection loop from row `i` on, with the best row so far: a row is taken when it is
Online with `task_queue_size < 5` and no row is chosen yet or its queue is strictly shorter than
the chosen one's. -/
def bestAgentFrom : ℕ → Option (ℕ × AiAgent) → List AiAgent → Option (ℕ × AiAgent)
  | _, best, [] => best
  | i, best, a :: as =>
    let best :=
      if a.status = .online ∧ a.taskQueueSize < 5 then
        match best with
        | none => some (i, a)
        | some (j, b) => if a.taskQueueSize < b.taskQueueSize then some (i, a) else some (j, b)
      else best
    bestAgentFrom (i+1) best as

def bestAgent (agents : List AiAgent) : Option (ℕ × AiAgent) := bestAgentFrom 0 none agents

def submittedTask (d : List UInt8) (uuid : CStr 63) (best : AiAgent) (now : ℤ) : TaskSession :=
  { sessionId := uuid
    taskDescription := CStr.ofBytes 511 d
    assignedAgent := CStr.ofBytes 63 best.agentId.bytes
    created := now
    started := 0
    completed := 0
    priority := 5
    result := CStr.empty
    status := .submitted }

def noAgentsText : List UInt8 := ascii "No available AI agents in distributed network"
def queueFullText : List UInt8 := ascii "Task queue full"
def timeoutText : List UInt8 := ascii "Task timeout - no response from distributed AI network"

/-- How the locked section of `anbs_distributed_ai_submit_task(d, &result)` ends: an error exit
with its `*result`, or a new row at index `row`, the new state and the TaskRequest sent. -/
inductive SubmitStart
  | failed (result : List UInt8)
  | started (row : ℕ) (s : DistributedAiSystem) (sent : Send)

/-- The locked section of `anbs_distributed_ai_submit_task(d, &result)`, with `uuid` the session
id `uuid_generate` yields. -/
def submitTask (d : List UInt8) (uuid : CStr 63) (now : ℤ) (s : DistributedAiSystem) : SubmitStart :=
  match bestAgent s.agents with
  | none => .failed noAgentsText
  | some (i, best) =>
    if h : s.activeTasks.length < maxTasks then
      let task := submittedTask d uuid best now
      let msg := createMessage s.localAgentId now uuid .taskRequest best.agentId.bytes d
      .started s.activeTasks.length
        ((s.withTasks (s.activeTasks ++ [task]) (by simpa using h)).withAgents
          (s.agents.modify (fun a => { a with taskQueueSize := a.taskQueueSize + 1 }) i)
          (by simpa using s.agents_le))
        ⟨best, { msg with sessionId := CStr.ofBytes 63 task.sessionId.bytes }⟩
    else .failed queueFullText

/-- A call of `anbs_distributed_ai_submit_task` after its locked section: at the test
`while (timeout > 0)` with `timeout` as it stands, or returned `code` with `*result`. -/
inductive SubmitCall
  | polling (row : ℕ) (timeout : ℕ)
  | returned (code : ℤ) (result : List UInt8)
  deriving DecidableEq

def SubmitStart.call : SubmitStart → SubmitCall
  | .failed r => .returned (-1) r
  | .started row _ _ => .polling row 30

/-- One pass of the wait loop. With time left, one check under `tasks_mutex`: the row's result
once it reads `"completed"`, otherwise `sleep(1); timeout--`, during which the other threads
run. With none left the loop exits and the timeout text is returned without reading the row. -/
def pollCall (s : DistributedAiSystem) : SubmitCall → SubmitCall
  | .polling _ 0 => .returned (-1) timeoutText
  | .polling row (timeout + 1) =>
    match s.activeTasks[row]? with
    | some t => if t.status = .completed then .returned 0 t.result.bytes else .polling row timeout
    | none => .polling row timeout
  | c => c

end DistributedAi
