import DistributedAi.Process

/-! The listener's side of the wire: what `parse_message` does with every text
`discovery_thread` hands it, and which of the messages the code builds arrive whole in its
`char buffer[MAX_MESSAGE_SIZE]`. -/
namespace DistributedAi

open JsonObject

/-! ## `parse_message` on every text -/

theorem stringField_eq_none {max : ℕ} {root : JsonObject} {key : String} :
    stringField max root key = none ↔ root.objectGetEx (ascii key) = some null := by
  unfold stringField
  cases root.objectGetEx (ascii key) with
  | none => simp
  | some v => cases v <;> simp [getString]

/-- `parse_message` hands `NULL` to `strncpy` or `strlen` exactly when the text parses and one
of the four string fields holds `null`; every other field value, of any type, is read. -/
theorem parseMessage_undefined_iff (s : List UInt8) :
    parseMessage s = .undefined ↔ ∃ root, tokenerParse s = some root ∧
      ∃ key ∈ ["sender", "recipient", "session", "payload"], root.objectGetEx (ascii key) = some null := by
  unfold parseMessage
  cases tokenerParse s with
  | none => simp
  | some root =>
    simp only [Option.some.injEq, exists_eq_left', List.mem_cons, List.mem_singleton,
      List.not_mem_nil, or_false, exists_eq_or_imp, exists_eq_left]
    rw [← @stringField_eq_none 63, ← @stringField_eq_none 63, ← @stringField_eq_none 63,
      ← @stringField_eq_none (maxMessageSize - 1)]
    cases stringField 63 root "sender" <;> cases stringField 63 root "recipient" <;>
      cases stringField 63 root "session" <;> cases stringField (maxMessageSize - 1) root "payload" <;>
      simp

/-- A message `parse_message` returns has `payload_size = strlen(payload)`; its ids and payload
are C strings of their buffers by their type. -/
theorem payloadSize_of_parseMessage {s : List UInt8} {msg : AiMessage} (h : parseMessage s = .ok msg) :
    msg.payloadSize = msg.payload.bytes.length := by
  unfold parseMessage at h
  split at h
  · cases h
  · split at h
    · cases h; rfl
    · cases h

def nullSenderDatagram : List UInt8 := ascii "\x7b\"sender\": null\x7d"

/-- On `{"sender": null}` every process runs into `strncpy(msg->sender_id, NULL, 63)`. -/
theorem null_sender_undefined (p : Process) :
    parseMessage nullSenderDatagram = .undefined ∧ p.step (.receive nullSenderDatagram) = none :=
  ⟨rfl, rfl⟩

/-! ## Messages the code builds, against the receive buffer -/

end DistributedAi
