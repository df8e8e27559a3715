import DistributedAi.JsonTokener

/-! `ai_message_t`, the one message of the discovery and task protocol, and the three
functions that make, print and read it: `create_message`, the JSON text
`send_message_to_agent` writes, and `parse_message`. -/
namespace DistributedAi

open JsonObject

/-- `MAX_MESSAGE_SIZE`, the payload buffer and the receive buffer. -/
def maxMessageSize : ℕ := 8192

inductive MessageType
  | discovery | handshake | taskRequest | taskResponse | statusUpdate | heartbeat
  | capabilityQuery | capabilityResponse | coordination | shutdown
  deriving DecidableEq, Repr

namespace MessageType

def toInt : MessageType → ℤ
  | discovery => 1
  | handshake => 2
  | taskRequest => 3
  | taskResponse => 4
  | statusUpdate => 5
  | heartbeat => 6
  | capabilityQuery => 7
  | capabilityResponse => 8
  | coordination => 9
  | shutdown => 10

theorem toInt_mem (t : MessageType) : 1 ≤ t.toInt ∧ t.toInt ≤ 10 := by
  cases t <;> decide

end MessageType

/-- `ai_message_t`. The `type` slot holds whatever `int` was stored in it: `parse_message`
stores `json_object_get_int` of the field, not only enumerator values. -/
structure AiMessage where
  type : ℤ
  senderId : CStr 63
  recipientId : CStr 63
  sessionId : CStr 63
  timestamp : ℤ
  payloadSize : ℕ
  payload : CStr 8191
  deriving DecidableEq

/-- What reading a message back needs of it: `type` fits `int32_t` (it is printed with
`json_object_new_int`), `timestamp` fits `time_t`, and `payload_size` is the payload's length. -/
structure AiMessage.WellFormed (msg : AiMessage) : Prop where
  type_mem : int32Min ≤ msg.type ∧ msg.type ≤ int32Max
  timestamp_mem : int64Min ≤ msg.timestamp ∧ msg.timestamp ≤ int64Max
  payloadSize_eq : msg.payloadSize = msg.payload.bytes.length

/-- `create_message(type, recipient, payload, &msg)` on the running system whose
`local_agent_id` is `localId`, with `time(NULL) = now`. `uuid` is the text `uuid_generate`
and `uuid_unparse` give a task message's `session_id`. A `NULL` recipient is written as the
empty string, which `strncpy` copies alike; no caller passes a `NULL` payload. -/
def createMessage (localId : CStr 63) (now : ℤ) (uuid : CStr 63) (type : MessageType)
    (recipient payload : List UInt8) : AiMessage :=
  let payload : CStr 8191 := CStr.ofBytes (maxMessageSize - 1) payload
  { type := type.toInt
    senderId := CStr.ofBytes 63 localId.bytes
    recipientId := CStr.ofBytes 63 recipient
    sessionId := if type = .taskRequest ∨ type = .taskResponse then uuid else CStr.empty
    timestamp := now
    payloadSize := payload.bytes.length
    payload := payload }

/-- The `json_object` `send_message_to_agent` builds for `msg`. -/
def messageJson (msg : AiMessage) : JsonObject :=
  object [(ascii "type", int msg.type), (ascii "sender", string msg.senderId.bytes),
    (ascii "recipient", string msg.recipientId.bytes), (ascii "session", string msg.sessionId.bytes),
    (ascii "timestamp", int msg.timestamp), (ascii "payload", string msg.payload.bytes)]

/-- `json_object_to_json_string(root)`: the text `send_message_to_agent` writes. -/
def encodeMessage (msg : AiMessage) : List UInt8 := (messageJson msg).toJsonString

/-- How a call of `parse_message` ends: `-1`, `0` with the message, or undefined behaviour
when a string field is JSON `null` and `strncpy` or `strlen` is handed the `NULL` that
`json_object_get_string` returns for it. -/
inductive Parsed
  | rejected
  | ok (msg : AiMessage)
  | undefined
  deriving DecidableEq

/-- `if (json_object_object_get_ex(root, key, &v)) strncpy(field, json_object_get_string(v), max)`
on a zeroed field; `none` when the value is JSON `null`. The payload's `strlen`, clamp and
`memcpy` copy the same bytes. -/
def stringField (max : ℕ) (root : JsonObject) (key : String) : Option (CStr max) :=
  match root.objectGetEx (ascii key) with
  | none => some CStr.empty
  | some v => v.getString.map (CStr.ofBytes max)

/-- `parse_message(json_str, &msg)`. -/
def parseMessage (jsonStr : List UInt8) : Parsed :=
  match tokenerParse jsonStr with
  | none => .rejected
  | some root =>
    match stringField 63 root "sender", stringField 63 root "recipient",
      stringField 63 root "session", stringField (maxMessageSize - 1) root "payload" with
    | some sender, some recipient, some session, some payload =>
      .ok { type := ((root.objectGetEx (ascii "type")).map getInt).getD 0
            senderId := sender
            recipientId := recipient
            sessionId := session
            timestamp := ((root.objectGetEx (ascii "timestamp")).map getInt64).getD 0
            payloadSize := payload.bytes.length
            payload := payload }
    | _, _, _, _ => .undefined

end DistributedAi
