import DistributedAi.Sweep
import DistributedAi.Dispatch

/-! Where `send_message_to_agent` sends: a Discovery is broadcast, every other message goes to
the address `inet_pton` reads from the row. No code writes `ip_address`, so it stays empty. -/
namespace DistributedAi

open JsonObject

/-! ## `inet_pton(AF_INET, ...)` -/

/-- `struct in_addr`: the four bytes of an IPv4 address, in network order. -/
@[ext] structure InAddr where
  octets : List UInt8
  length_octets : octets.length = 4
  deriving DecidableEq

namespace InAddr

def get (a : InAddr) (i : ℕ) : UInt8 := a.octets.getD i 0

def set (a : InAddr) (i : ℕ) (v : UInt8) : InAddr :=
  ⟨a.octets.set i v, by rw [List.length_set, a.length_octets]⟩

@[simp] theorem octets_set (a : InAddr) (i : ℕ) (v : UInt8) : (a.set i v).octets = a.octets.set i v := rfl

@[simp] theorem get_set_self (a : InAddr) {i : ℕ} (h : i < 4) (v : UInt8) : (a.set i v).get i = v := by
  simp [get, set, a.length_octets, h]

@[simp] theorem set_set (a : InAddr) (i : ℕ) (v w : UInt8) : (a.set i v).set i w = a.set i w :=
  InAddr.ext (List.set_set _ _ _ _)

end InAddr

def dottedDecimal : List UInt8 → List UInt8
  | [] => []
  | [b] => natDecimal b.toNat
  | b :: b' :: bs => natDecimal b.toNat ++ 0x2E :: dottedDecimal (b' :: bs)

/-- The dotted-decimal text of an address, as `inet_ntoa` prints it. -/
def InAddr.text (a : InAddr) : List UInt8 := dottedDecimal a.octets

/-- The locals of glibc's `inet_pton4` loop: the four bytes `tmp`, the index `tp` points at,
`saw_digit` and `octets`. -/
structure Pton4 where
  tmp : InAddr
  tp : ℕ
  sawDigit : Bool
  octets : ℕ
  deriving DecidableEq

/-- `saw_digit = 0; octets = 0; *(tp = tmp) = 0;`. The other bytes of `tmp` are each written
before they are read, so they start as `0` here. -/
def Pton4.init : Pton4 := ⟨⟨[0, 0, 0, 0], rfl⟩, 0, false, 0⟩

/-- One pass of `inet_pton4`'s loop on the character `ch`; `none` is `return 0`. -/
def pton4Step (st : Pton4) (ch : UInt8) : Option Pton4 :=
  if isDigit ch then
    let new := (st.tmp.get st.tp).toNat * 10 + (ch.toNat - 48)
    if st.sawDigit ∧ st.tmp.get st.tp = 0 then none
    else if new > 255 then none
    else if st.sawDigit then some { st with tmp := st.tmp.set st.tp new.toUInt8 }
    else if st.octets + 1 > 4 then none
    else some { st with tmp := st.tmp.set st.tp new.toUInt8, sawDigit := true, octets := st.octets + 1 }
  else if ch = 0x2E ∧ st.sawDigit then
    if st.octets = 4 then none
    else some { st with tmp := st.tmp.set (st.tp + 1) 0, tp := st.tp + 1, sawDigit := false }
  else none

/-- `inet_pton(AF_INET, src, &dst)` on the C string `src`: the address it copies into `dst`, or
`none` when it returns 0 and leaves `dst` as it was. -/
def inetPton4 (src : List UInt8) : Option InAddr :=
  (src.foldlM pton4Step Pton4.init).bind fun st => if st.octets < 4 then none else some st.tmp

theorem inetPton4_nil : inetPton4 [] = none := rfl

section
variable {st : Pton4} {d : ℕ}

theorem pton4Step_first_digit (hd : d < 10) (hs : st.sawDigit = false) (h0 : st.tmp.get st.tp = 0)
    (ho : st.octets < 4) :
    pton4Step st (d + 48).toUInt8 =
      some { st with tmp := st.tmp.set st.tp d.toUInt8, sawDigit := true, octets := st.octets + 1 } := by
  have : ¬ st.octets + 1 > 4 := by omega
  simp [pton4Step, isDigit_digit hd, show (d + 48) % 256 - 48 = d by omega, hs, h0, this,
    show ¬ d > 255 by omega]

theorem pton4Step_next_digit (hd : d < 10) (hs : st.sawDigit = true) (h0 : st.tmp.get st.tp ≠ 0)
    (hle : (st.tmp.get st.tp).toNat * 10 + d ≤ 255) :
    pton4Step st (d + 48).toUInt8 =
      some { st with tmp := st.tmp.set st.tp ((st.tmp.get st.tp).toNat * 10 + d).toUInt8 } := by
  simp [pton4Step, isDigit_digit hd, show (d + 48) % 256 - 48 = d by omega, hs, h0, not_lt.2 hle]

theorem pton4Step_dot (hs : st.sawDigit = true) (ho : st.octets ≠ 4) :
    pton4Step st 0x2E = some { st with tmp := st.tmp.set (st.tp + 1) 0, tp := st.tp + 1, sawDigit := false } := by
  simp [pton4Step, hs, ho, show isDigit 0x2E = false by decide]

end

/-- The digits `printf("%u")` prints for a number below 256 are read as one part, whatever
the fuel of the printer beyond the number. -/
theorem foldlM_pton4Step_decimalAux {f n : ℕ} (hf : n < f) (hn : n ≤ 255) {st : Pton4}
    (hs : st.sawDigit = false) (h0 : st.tmp.get st.tp = 0) (htp : st.tp < 4) (ho : st.octets < 4) :
    (decimalAux f n []).foldlM pton4Step st =
      some { st with tmp := st.tmp.set st.tp n.toUInt8, sawDigit := true, octets := st.octets + 1 } := by
  induction f generalizing n with
  | zero => omega
  | succ f ih =>
    simp only [decimalAux]
    split
    · simp [pton4Step_first_digit ‹n < 10› hs h0 ho]
    · have hget : ((st.tmp.set st.tp (n / 10).toUInt8).get st.tp).toNat = n / 10 := by
        rw [InAddr.get_set_self _ htp, toNat_toUInt8]; omega
      rw [decimalAux_append, List.foldlM_append, ih (by omega) (by omega)]
      simp only [List.foldlM_cons, List.foldlM_nil, Option.bind_eq_bind, Option.some_bind, Option.bind_some]
      rw [pton4Step_next_digit (Nat.mod_lt n (by omega)) rfl
        (fun h => by rw [h] at hget; simp at hget; omega) (by rw [hget]; omega)]
      simp [hget, Nat.div_add_mod']

theorem take_set_succ {l : List UInt8} {i : ℕ} (h : i < l.length) (v : UInt8) :
    (l.set i v).take (i + 1) = l.take i ++ [v] := by
  rw [List.set_eq_take_append_cons_drop, if_pos h, List.take_append_eq_append_take,
    List.take_of_length_le (by simp)]
  simp [Nat.min_eq_left h.le]

/-- Reading the dotted text of the parts `bs` from the part at `tp` on fills the bytes from
`tp` on with `bs` and counts four parts. -/
theorem foldlM_pton4Step_dottedDecimal (bs : List UInt8) {st : Pton4} (hbs : bs ≠ [])
    (hlen : st.tp + bs.length = 4) (ho : st.octets = st.tp) (hs : st.sawDigit = false)
    (h0 : st.tmp.get st.tp = 0) :
    ∃ st', (dottedDecimal bs).foldlM pton4Step st = some st' ∧
      st'.tmp.octets = st.tmp.octets.take st.tp ++ bs ∧ st'.octets = 4 := by
  induction bs generalizing st with
  | nil => exact absurd rfl hbs
  | cons b rest ih =>
    simp only [List.length_cons] at hlen
    have htmp := st.tmp.length_octets
    have hdig := @foldlM_pton4Step_decimalAux (b.toNat + 1) b.toNat (by omega)
      (Nat.le_of_lt_succ b.toNat_lt_size) st hs h0 (by omega) (by omega)
    rw [toUInt8_toNat] at hdig
    cases rest with
    | nil =>
      simp only [List.length_nil] at hlen
      refine ⟨_, hdig, ?_, show st.octets + 1 = 4 by omega⟩
      rw [InAddr.octets_set, List.set_eq_take_append_cons_drop, if_pos (by omega),
        List.drop_of_length_le (by omega)]
    | cons b' rest' =>
      simp only [List.length_cons] at hlen
      rw [dottedDecimal, List.foldlM_append, natDecimal, hdig]
      simp only [List.foldlM_cons, Option.bind_eq_bind, Option.some_bind,
        @pton4Step_dot ⟨st.tmp.set st.tp b, st.tp, true, st.octets + 1⟩ rfl (show st.octets + 1 ≠ 4 by omega)]
      obtain ⟨st', h, htmp', ho'⟩ := @ih ⟨(st.tmp.set st.tp b).set (st.tp + 1) 0, st.tp + 1, false,
        st.octets + 1⟩ (List.cons_ne_nil _ _) (by simp only [List.length_cons]; omega) (by simp [ho]) rfl
        (InAddr.get_set_self _ (by omega) _)
      refine ⟨st', h, ?_, ho'⟩
      rw [htmp', InAddr.octets_set, InAddr.octets_set, List.set_take,
        List.set_eq_of_length_le (by simp), take_set_succ (by omega)]
      simp

/-- `inet_pton` reads an address back from its dotted-decimal text. -/
theorem inetPton4_text (a : InAddr) : inetPton4 a.text = some a := by
  obtain ⟨st, h, htmp, ho⟩ := @foldlM_pton4Step_dottedDecimal a.octets Pton4.init
    (List.ne_nil_of_length_pos (by rw [a.length_octets]; omega)) (by simp [Pton4.init, a.length_octets])
    rfl rfl rfl
  simp only [inetPton4, InAddr.text, h, Option.some_bind, ho]
  exact congrArg some (InAddr.ext (by simpa [Pton4.init] using htmp))

theorem text_ne_nil (a : InAddr) : a.text ≠ [] := fun h => by
  simpa [h, inetPton4_nil] using inetPton4_text a

/-! ## `send_message_to_agent` -/

/-- Where `send_message_to_agent` sends a message. -/
inductive Destination
  /-- `sendto` the broadcast address on `DISCOVERY_PORT`. -/
  | broadcast
  /-- `connect` on `htons(agent->port)` to the address `inet_pton` read, or, when it read none
  (`none`), to whatever `addr.sin_addr` held on the stack. -/
  | connect (addr : Option InAddr) (port : ℕ)
  deriving DecidableEq

/-- The destination of `send_message_to_agent(agent, msg)`. -/
def sendDestination (snd : Send) : Destination :=
  if snd.msg.type = MessageType.discovery.toInt then .broadcast
  else .connect (inetPton4 snd.agent.ipAddress.bytes) (snd.agent.port % 2 ^ 16).toNat

/-- The calls of `send_message_to_agent` a step makes: a round's discovery broadcast and
heartbeats, and the TaskRequest of a submit that found an agent and room. `handle_message`
builds its replies and sends none of them. -/
def Process.sends (p : Process) : Action → List Send
  | .coordinate => (coordinationRound p.clock p.sys).2
  | .submit d u =>
    match submitTask d u p.clock p.sys with
    | .started _ _ sent => [sent]
    | .failed _ => []
  | _ => []

/-- The Shutdown messages `anbs_distributed_ai_cleanup` sends: one to each Online row. -/
def cleanupSends (now : ℤ) (s : DistributedAiSystem) : List Send :=
  (s.agents.filter (·.status = .online)).map fun a =>
    ⟨a, createMessage s.localAgentId now CStr.empty .shutdown a.agentId.bytes (ascii "System shutting down")⟩

/-! ## No row ever gets an address -/

def DistributedAiSystem.addresses (s : DistributedAiSystem) : List (CStr 63) := s.agents.map (·.ipAddress)

section
variable {s : DistributedAiSystem} {msg : AiMessage} {now : ℤ}

theorem addresses_withAgents_updateFirst (p : AiAgent → Bool) {f : AiAgent → AiAgent}
    (hf : ∀ a, (f a).ipAddress = a.ipAddress) (h) :
    (s.withAgents (updateFirst p f s.agents) h).addresses = s.addresses :=
  map_updateFirst p f hf s.agents

theorem addresses_handleDiscovery :
    (handleDiscovery msg now s).addresses = s.addresses ∨
      (handleDiscovery msg now s).addresses = s.addresses ++ [CStr.empty] := by
  unfold handleDiscovery
  split
  · exact .inl (addresses_withAgents_updateFirst _ (by intro; rfl) _)
  · split
    · exact .inr (by simp [DistributedAiSystem.addresses, DistributedAiSystem.withAgents, discoveredAgent,
        AiAgent.zero])
    · exact .inl rfl

theorem addresses_handleMessage :
    (handleMessage msg now s).addresses = s.addresses ∨
      (handleMessage msg now s).addresses = s.addresses ++ [CStr.empty] := by
  unfold handleMessage
  split
  · exact addresses_handleDiscovery
  · exact .inl (addresses_withAgents_updateFirst _ (by intro; rfl) _)
  · unfold handleTaskRequest; split <;> exact .inl rfl
  · exact .inl rfl
  · exact .inl (addresses_withAgents_updateFirst _ (by intro; rfl) _)
  · exact .inl rfl

@[simp] theorem ipAddress_sweepAgent (localId : CStr 63) (now : ℤ) (a : AiAgent) :
    (sweepAgent localId now a).1.ipAddress = a.ipAddress := by
  rw [sweepAgent_fst]

@[simp] theorem addresses_coordinationRound (now : ℤ) (s : DistributedAiSystem) :
    (coordinationRound now s).1.addresses = s.addresses := by
  simp [coordinationRound, DistributedAiSystem.addresses, Function.comp_def,
    DistributedAiSystem.withAgents]

end

section
variable {p q : Process} {a : Action}

theorem addresses_step (h : p.step a = some q) :
    q.sys.addresses = p.sys.addresses ∨ q.sys.addresses = p.sys.addresses ++ [CStr.empty] := by
  rcases step_cases h with ⟨d, -, rfl⟩ | ⟨d, msg, -, -, rfl⟩ | ⟨-, rfl⟩ | ⟨d, u, -, rfl⟩ |
    ⟨k, -, rfl⟩ | ⟨n, -, rfl⟩
  · exact .inl rfl
  · exact addresses_handleMessage
  · exact .inl (addresses_coordinationRound _ _)
  · rcases startCall_submitTask p d u with h' | ⟨i, best, -, -, hag, -, -⟩
    · exact .inl (by rw [h'])
    · exact .inl (by rw [DistributedAiSystem.addresses, hag]; exact map_modify (by intro; rfl) _ _)
  · exact .inl rfl
  · exact .inl rfl

/-- No row of a reachable state has an address. -/
theorem ipAddress_of_reachable (hp : Reachable p) : ∀ r ∈ p.sys.agents, r.ipAddress = CStr.empty := by
  suffices ∀ x ∈ p.sys.addresses, x = CStr.empty from fun r hr => this _ (List.mem_map_of_mem _ hr)
  induction hp with
  | init => simp [Process.init, DistributedAiSystem.init, DistributedAiSystem.addresses]
  | step _ hs ih =>
    rcases addresses_step hs with h | h <;> rw [h]
    · exact ih
    · simp only [List.mem_append, List.mem_singleton]
      exact fun x hx => hx.elim (ih x) id

end

/-! ## Every point-to-point send goes to no address -/

theorem mem_sends_coordinationRound_agent {now : ℤ} {s : DistributedAiSystem} {snd : Send}
    (h : snd ∈ (coordinationRound now s).2) :
    snd.msg.type = MessageType.discovery.toInt ∨
      (snd.agent ∈ s.agents ∧ snd.msg.type = MessageType.heartbeat.toInt) := by
  simp only [coordinationRound, List.mem_cons, List.mem_flatten, List.mem_map] at h
  rcases h with rfl | ⟨_, ⟨_, ⟨a, ha, rfl⟩, rfl⟩, hs⟩
  · exact .inl rfl
  · obtain ⟨hstale, hfresh, hoff, -⟩ := sweepAgent_spec s.localAgentId now a
    by_cases hon : a.status = .online
    · by_cases hst : now - a.lastSeen > 30
      · simp [(hstale hon hst).2] at hs
      · obtain ⟨-, m, hr, htype, -⟩ := hfresh hon (not_lt.1 hst)
        rw [hr, List.mem_singleton] at hs
        subst hs
        exact .inr ⟨ha, htype⟩
    · simp [(hoff hon).2] at hs

theorem sent_of_submitTask {d : List UInt8} {u : CStr 63} {now : ℤ} {s s' : DistributedAiSystem}
    {row : ℕ} {sent : Send} (h : submitTask d u now s = .started row s' sent) :
    (∃ i, bestAgent s.agents = some (i, sent.agent)) ∧ sent.msg.type = MessageType.taskRequest.toInt := by
  unfold submitTask at h
  split at h
  · cases h
  · split at h
    · cases h; exact ⟨⟨_, ‹_›⟩, rfl⟩
    · cases h

/-- Each call a step makes is the discovery broadcast or goes to a row of the table with a
message other than a Discovery. -/
theorem mem_sends {p : Process} {act : Action} {snd : Send} (h : snd ∈ p.sends act) :
    snd.msg.type = MessageType.discovery.toInt ∨
      (snd.agent ∈ p.sys.agents ∧ snd.msg.type ≠ MessageType.discovery.toInt) := by
  cases act with
  | coordinate =>
    rcases mem_sends_coordinationRound_agent h with ht | ⟨ha, ht⟩
    · exact .inl ht
    · exact .inr ⟨ha, by rw [ht]; decide⟩
  | submit d u =>
    simp only [Process.sends] at h
    split at h
    · rename_i heq
      rw [List.mem_singleton] at h
      subst h
      obtain ⟨⟨i, hb⟩, ht⟩ := sent_of_submitTask heq
      exact .inr ⟨List.getElem?_mem (bestAgent_eq_some_iff.1 hb).row, by rw [ht]; decide⟩
    · simp at h
  | receive | poll | tick => simp [Process.sends] at h

theorem mem_cleanupSends {now : ℤ} {s : DistributedAiSystem} {snd : Send} (h : snd ∈ cleanupSends now s) :
    snd.agent ∈ s.agents ∧ snd.agent.status = .online ∧ snd.msg.type = MessageType.shutdown.toInt := by
  simp only [cleanupSends, List.mem_map, List.mem_filter, decide_eq_true_eq] at h
  obtain ⟨a, ⟨ha, hon⟩, rfl⟩ := h
  exact ⟨ha, hon, rfl⟩

theorem sendDestination_of_empty {snd : Send} (h : snd.agent.ipAddress = CStr.empty)
    (ht : snd.msg.type ≠ MessageType.discovery.toInt) :
    sendDestination snd = .connect none (snd.agent.port % 2 ^ 16).toNat := by
  simp [sendDestination, ht, h, inetPton4_nil]

/-- Whatever address a peer's Discovery came from, no row holds that address, nor any other:
`ip_address` stays empty in every reachable state. So every heartbeat and TaskRequest a step
sends, and every Shutdown `anbs_distributed_ai_cleanup` sends, goes to a `connect` whose
`sin_addr` `inet_pton` never set; only the discovery broadcast has a destination. -/
theorem discovered_address_dropped (src : InAddr) :
    (∀ p, Reachable p → ∀ r ∈ p.sys.agents, r.ipAddress = CStr.empty ∧ r.ipAddress.bytes ≠ src.text) ∧
    (∀ p act, Reachable p → ∀ snd ∈ p.sends act,
      sendDestination snd = .broadcast ∨ ∃ port, sendDestination snd = .connect none port) ∧
    (∀ p now, Reachable p → ∀ snd ∈ cleanupSends now p.sys,
      ∃ port, sendDestination snd = .connect none port) := by
  refine ⟨fun p hp r hr => ⟨ipAddress_of_reachable hp r hr, ?_⟩, fun p act hp snd hsnd => ?_,
    fun p now hp snd hsnd => ?_⟩
  · rw [ipAddress_of_reachable hp r hr]
    exact (text_ne_nil src).symm
  · rcases mem_sends hsnd with ht | ⟨ha, ht⟩
    · exact .inl (if_pos ht)
    · exact .inr ⟨_, sendDestination_of_empty (ipAddress_of_reachable hp _ ha) ht⟩
  · obtain ⟨ha, -, ht⟩ := mem_cleanupSends hsnd
    exact ⟨_, sendDestination_of_empty (ipAddress_of_reachable hp _ ha) (by rw [ht]; decide)⟩

/-- `agent-a` after `agent-b`'s Discovery and Handshake, from whatever address they came: the
row has no address, and the next round's heartbeat to `agent-b` goes to a `connect` on port
9878 with `sin_addr` unset. -/
theorem heartbeat_to_b_unaddressed :
    handshakenB.sys.addresses = [CStr.empty] ∧
      (handshakenB.sends .coordinate).map sendDestination = [.broadcast, .connect none 9878] :=
  ⟨rfl, by decide⟩

end DistributedAi
