import DistributedAi.Network

/-! The id `generate_agent_id` prints into the 64 bytes of `local_agent_id`: with a host name of
57 bytes or more every process on that host gets one id, and two such processes never meet. -/
namespace DistributedAi

open JsonObject

/-- `generate_agent_id(agent_id, 64)`: `snprintf(agent_id, size, "anbs-%s-%s", hostname,
uuid_str)`, with the name `gethostname` writes into `char hostname[256]` and the text
`uuid_unparse` writes into `char uuid_str[37]`; `snprintf` keeps `size - 1 = 63` bytes. -/
def generateAgentId (hostname : CStr 255) (uuidStr : CStr 36) : CStr 63 :=
  CStr.ofBytes 63 (ascii "anbs-" ++ hostname.bytes ++ ascii "-" ++ uuidStr.bytes)

theorem generateAgentId_bytes (hostname : CStr 255) (uuidStr : CStr 36) :
    (generateAgentId hostname uuidStr).bytes =
      (ascii "anbs-" ++ hostname.bytes ++ ascii "-").take 63 ++
        uuidStr.bytes.take (57 - hostname.bytes.length) := by
  have h0 : (0 : UInt8) ∉ ascii "anbs-" ++ hostname.bytes ++ ascii "-" ++ uuidStr.bytes := by
    simp only [List.mem_append, not_or]
    exact ⟨⟨⟨by decide, hostname.nul_free⟩, by decide⟩, uuidStr.nul_free⟩
  have hlen : (ascii "anbs-" ++ hostname.bytes ++ ascii "-").length = hostname.bytes.length + 6 := by
    simp only [List.length_append]
    have h5 : (ascii "anbs-").length = 5 := by decide
    have h1 : (ascii "-").length = 1 := by decide
    omega
  rw [generateAgentId, CStr.ofBytes_bytes, CStr.prefixOf_of_nul_free h0, List.take_append_eq_append_take,
    hlen]
  congr 2
  omega

/-- Two uuid texts give one id exactly when they agree on their first `57 - strlen(hostname)`
bytes: the whole uuid survives only when the host name has at most 21 bytes. -/
theorem generateAgentId_eq_iff (hostname : CStr 255) (u u' : CStr 36) :
    generateAgentId hostname u = generateAgentId hostname u' ↔
      u.bytes.take (57 - hostname.bytes.length) = u'.bytes.take (57 - hostname.bytes.length) := by
  rw [CStr.ext_iff, generateAgentId_bytes, generateAgentId_bytes, List.append_cancel_left_eq]

theorem generateAgentId_of_long {hostname : CStr 255} (hl : 57 ≤ hostname.bytes.length)
    (u u' : CStr 36) : generateAgentId hostname u = generateAgentId hostname u' := by
  rw [CStr.ext_iff, generateAgentId_bytes, generateAgentId_bytes, Nat.sub_eq_zero_of_le hl,
    List.take_zero, List.take_zero]

/-! ## Two nodes with one id -/

/-- What holds after any schedule from two nodes started with one id `id`: the clock fits
`time_t`, every text in flight is a message from `id` that arrives whole, and neither registry
has a row. -/
structure SameId (id : CStr 63) (n : Network) : Prop where
  clock_mem : int64Min ≤ n.clock ∧ n.clock ≤ int64Max
  localAgentId : ∀ x, (n.node x).localAgentId = id
  agents : ∀ x, (n.node x).agents = []
  inFlight : ∀ d ∈ n.inFlight, ∃ m, d = encodeMessage m ∧ m.WellFormed ∧
    m.payload.bytes.length ≤ 1154 ∧ m.senderId = id

section
variable {id : CStr 63} {n n' : Network}

theorem SameId.setNode (hi : SameId id n) {x : Node} {s : DistributedAiSystem}
    (hl : s.localAgentId = id) (ha : s.agents = []) :
    (∀ y, ((n.setNode x s).node y).localAgentId = id) ∧ ∀ y, ((n.setNode x s).node y).agents = [] := by
  refine ⟨fun y => ?_, fun y => ?_⟩ <;> by_cases hxy : x = y
  all_goals first
    | (subst hxy; simpa using ‹_›)
    | rw [Network.node_setNode_ne _ hxy]; first | exact hi.localAgentId y | exact hi.agents y

theorem sends_coordinationRound_of_nil {now : ℤ} {s : DistributedAiSystem} (ha : s.agents = [])
    {snd : Send} (h : snd ∈ (coordinationRound now s).2) :
    snd.msg = createMessage s.localAgentId now CStr.empty .discovery [] discoveryPayload := by
  rcases mem_sends_coordinationRound h with h | ⟨a, hmem, -⟩
  · exact h
  · exact absurd hmem (ha ▸ List.not_mem_nil a)

theorem SameId.step {a : NetAction} (hi : SameId id n) (h : n.step a = some n') : SameId id n' := by
  rcases Network.step_cases h with ⟨x, rfl⟩ | ⟨d, x, s, hd, hs, rfl⟩ | ⟨k, rfl⟩ | ⟨k, hk, rfl⟩
  · have ha := hi.agents x
    obtain ⟨hl', ha'⟩ := hi.setNode (x := x) (s := (coordinationRound n.clock (n.node x)).1)
      (hi.localAgentId x) (by simp [coordinationRound, DistributedAiSystem.withAgents, ha])
    refine ⟨by simpa using hi.clock_mem, hl', ha', fun d hd => ?_⟩
    rcases List.mem_append.1 (by simpa using hd) with hd | hd
    · exact hi.inFlight d hd
    · obtain ⟨snd, hsnd, rfl⟩ := List.mem_map.1 hd
      rw [sends_coordinationRound_of_nil ha hsnd]
      exact ⟨_, rfl, createMessage_wellFormed _ _ _ _ _ hi.clock_mem,
        le_trans (CStr.length_ofBytes_le _) (by decide),
        (ofBytes_bytes_self _).trans (hi.localAgentId x)⟩
  · obtain ⟨m, rfl, hwf, hp, hm⟩ := hi.inFlight d hd
    rw [receiveDatagram_encodeMessage hwf hp, if_pos (hm.trans (hi.localAgentId x).symm)] at hs
    cases hs
    obtain ⟨hl', ha'⟩ := hi.setNode (x := x) (hi.localAgentId x) (hi.agents x)
    exact ⟨by simpa using hi.clock_mem, hl', ha', by simpa using hi.inFlight⟩
  · exact ⟨hi.clock_mem, hi.localAgentId, hi.agents, hi.inFlight⟩
  · exact ⟨⟨by have := hi.clock_mem.1; show int64Min ≤ n.clock + k; omega, hk⟩, hi.localAgentId,
      hi.agents, hi.inFlight⟩

theorem SameId.run {acts : List NetAction} (hi : SameId id n) (h : NetRun n acts n') : SameId id n' := by
  induction h with
  | nil => exact hi
  | snoc _ hs ih => exact ih.step hs

end

/-- Two processes on hosts of one name of at least 57 bytes get one id whatever `uuid_generate`
returns, and under any schedule neither registry ever gains a row: each node drops every
datagram of the other as its own. -/
theorem long_hostname_peers_never_meet {hostname : CStr 255} (hl : 57 ≤ hostname.bytes.length)
    (u u' : CStr 36) {c : ℤ} (hc : int64Min ≤ c ∧ c ≤ int64Max) {acts : List NetAction} {n : Network}
    (hrun : NetRun (Network.init (generateAgentId hostname u) (generateAgentId hostname u') c) acts n) :
    generateAgentId hostname u = generateAgentId hostname u' ∧ n.a.agents = [] ∧ n.b.agents = [] := by
  have heq := generateAgentId_of_long hl u u'
  have h0 : SameId (generateAgentId hostname u) (Network.init (generateAgentId hostname u)
      (generateAgentId hostname u') c) := by
    refine ⟨hc, fun x => ?_, fun x => ?_, fun _ h => absurd h (List.not_mem_nil _)⟩ <;> cases x
    exacts [rfl, heq.symm, rfl, rfl]
  have hi := h0.run hrun
  exact ⟨heq, hi.agents .a, hi.agents .b⟩

def longHostname : CStr 255 :=
  CStr.lit "build-runner-0123456789abcdef0123456789abcdef0123456.local" (by decide) (by decide)

def uuidText : CStr 36 := CStr.lit "1b4e28ba-2fa1-11d2-883f-0016d3cca427" (by decide) (by decide)

theorem deliver_own {n : Network} {i : ℕ} {m : AiMessage} {x : Node}
    (hi : n.inFlight[i]? = some (encodeMessage m)) (hwf : m.WellFormed)
    (hp : m.payload.bytes.length ≤ 1154) (heq : m.senderId = (n.node x).localAgentId) :
    n.step (.deliver i x) = some (n.setNode x (n.node x)) := by
  simp only [Network.step, hi, receiveDatagram_encodeMessage hwf hp, heq, if_true, Option.map_some']

def discoveryOfLongA : AiMessage :=
  createMessage (generateAgentId longHostname uuidText) 0 CStr.empty .discovery [] discoveryPayload

/-- `A`'s Discovery reaches `B`, which drops it as its own. -/
theorem long_hostname_peers_never_meet_run :
    ∃ n, 57 ≤ longHostname.bytes.length ∧ (int64Min ≤ (0 : ℤ) ∧ (0 : ℤ) ≤ int64Max) ∧
      NetRun (Network.init (generateAgentId longHostname uuidText) (generateAgentId longHostname CStr.empty) 0)
        [.coordinate .a, .deliver 0 .b] n ∧
      generateAgentId longHostname uuidText = generateAgentId longHostname CStr.empty ∧
        n.a.agents = [] ∧ n.b.agents = [] :=
  have s1 : (Network.init (generateAgentId longHostname uuidText) (generateAgentId longHostname CStr.empty)
      0).step (.coordinate .a) =
      some ⟨(coordinationRound 0 (DistributedAiSystem.init (generateAgentId longHostname uuidText))).1,
        DistributedAiSystem.init (generateAgentId longHostname CStr.empty), 0,
        [encodeMessage discoveryOfLongA], []⟩ := rfl
  have hrun := ((NetRun.nil _).snoc s1).snoc (deliver_own (i := 0) (x := .b) (m := discoveryOfLongA) rfl
    (createMessage_wellFormed _ _ _ _ _ (by decide)) (le_trans (CStr.length_ofBytes_le _) (by decide))
    (by decide))
  ⟨_, by decide, by decide, hrun,
    long_hostname_peers_never_meet (by decide) uuidText CStr.empty (by decide) hrun⟩

end DistributedAi
