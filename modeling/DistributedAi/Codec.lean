import DistributedAi.Message
import Mathlib.Data.List.Nodup

/-! The codec laws: `parse_message` reads back every message `send_message_to_agent` prints.
Leaves first (an escaped byte, a digit run, a blank), then a field, the member list, the
object, and the message. -/
namespace DistributedAi

open JsonObject

/-! ## Strings -/

/-- How `json_escape_str` writes a byte, in the three shapes the reader tells apart: the byte
itself, a one-letter escape, or `\u00XX` of a code unit below the surrogates. -/
def escapeShapeOk (c : UInt8) : Bool :=
  match escapeByte c with
  | [d] => d = c && d ≠ 0x22 && d ≠ 0x5C
  | [0x5C, e] => e ≠ 0x75 && unescapeByte e = some c
  | [0x5C, 0x75, a, b, d, e] =>
    hex4 a b d e = some c.toNat && unitBytes c.toNat = [c] && decide (c.toNat < 0xD800)
  | _ => false

theorem escapeByte_plain {c : UInt8} (h : 0x20 ≤ c.toNat) (h1 : c ≠ 0x22) (h2 : c ≠ 0x5C)
    (h3 : c ≠ 0x2F) : escapeByte c = [c] := by
  have h0 : ¬ c < 0x20 := by simpa [byte_lt_iff] using h
  unfold escapeByte
  split <;> simp_all

theorem escapeShapeOk_all (c : UInt8) : escapeShapeOk c = true := by
  by_cases hc : c.toNat < 32
  · have h : ∀ n < 32, escapeShapeOk n.toUInt8 = true := by decide
    simpa [toUInt8_toNat] using h c.toNat hc
  · by_cases h1 : c = 0x22; · subst h1; decide
    by_cases h2 : c = 0x5C; · subst h2; decide
    by_cases h3 : c = 0x2F; · subst h3; decide
    simp [escapeShapeOk, escapeByte_plain (by omega) h1 h2 h3, h1, h2]

@[simp] theorem flushHigh_none : flushHigh none = [] := rfl

theorem parseStringBody_plain {c : UInt8} (h1 : c ≠ 0x22) (h2 : c ≠ 0x5C) (high : Option ℕ)
    (t : List UInt8) :
    parseStringBody high (c :: t) = consStr (flushHigh high ++ [c]) (parseStringBody none t) := by
  rw [parseStringBody]
  all_goals simp_all

theorem parseStringBody_short {e b : UInt8} (he : e ≠ 0x75) (hb : unescapeByte e = some b)
    (high : Option ℕ) (t : List UInt8) :
    parseStringBody high (0x5C :: e :: t) = consStr (flushHigh high ++ [b]) (parseStringBody none t) := by
  rw [parseStringBody]
  all_goals simp_all

theorem parseStringBody_unicode {a b c d : UInt8} {cp : ℕ} (h : hex4 a b c d = some cp)
    (hcp : cp < 0xD800) (t : List UInt8) :
    parseStringBody none (0x5C :: 0x75 :: a :: b :: c :: d :: t) =
      consStr (unitBytes cp) (parseStringBody none t) := by
  rw [parseStringBody]
  simp [h]
  omega

/-- Reading an escaped byte gives the byte back, whatever follows. -/
theorem parseStringBody_escapeByte (c : UInt8) (t : List UInt8) :
    parseStringBody none (escapeByte c ++ t) = consStr [c] (parseStringBody none t) := by
  have h := escapeShapeOk_all c
  unfold escapeShapeOk at h
  split at h
  · rename_i d hd
    simp only [Bool.and_eq_true, decide_eq_true_eq] at h
    obtain ⟨⟨rfl, h1⟩, h2⟩ := h
    rw [hd, List.singleton_append, parseStringBody_plain h1 h2]
    rfl
  · rename_i e hd
    simp only [Bool.and_eq_true, decide_eq_true_eq] at h
    rw [hd, List.cons_append, List.singleton_append, parseStringBody_short h.1 h.2]
    rfl
  · rename_i a b d e hd
    simp only [Bool.and_eq_true, decide_eq_true_eq] at h
    obtain ⟨⟨h1, h2⟩, h3⟩ := h
    simp only [hd, List.cons_append, List.nil_append, parseStringBody_unicode h1 h3, h2]
  · simp at h

theorem parseStringBody_escapeStr (s t : List UInt8) :
    parseStringBody none (escapeStr s ++ 0x22 :: t) = some (s, t) := by
  induction s with
  | nil => simp [escapeStr, parseStringBody]
  | cons c s ih =>
    simp only [escapeStr, List.flatMap_cons, List.append_assoc] at ih ⊢
    rw [parseStringBody_escapeByte, ih]
    rfl

/-! ## Numbers -/

theorem decimalAux_append (fuel n : ℕ) (acc : List UInt8) :
    decimalAux fuel n acc = decimalAux fuel n [] ++ acc := by
  induction fuel generalizing n acc with
  | zero => rfl
  | succ f ih =>
    simp only [decimalAux]
    split
    · rfl
    · rw [ih, ih (n / 10) [_], List.append_assoc]; rfl

theorem isDigit_iff (c : UInt8) : isDigit c = true ↔ 48 ≤ c.toNat ∧ c.toNat ≤ 57 := by
  simp only [isDigit, Bool.and_eq_true, decide_eq_true_eq, byte_le_iff, toNat_byte_lit]

theorem isDigit_digit {k : ℕ} (h : k < 10) : isDigit (k + 48).toUInt8 = true := by
  rw [isDigit_iff]; simp; omega

theorem decimalAux_isDigit (fuel n : ℕ) : ∀ c ∈ decimalAux fuel n [], isDigit c = true := by
  induction fuel generalizing n with
  | zero => simp [decimalAux]
  | succ f ih =>
    simp only [decimalAux]
    split
    · simpa using isDigit_digit (by omega)
    · rw [decimalAux_append]
      intro c hc
      rcases List.mem_append.mp hc with hc | hc
      · exact ih _ c hc
      · simp only [List.mem_singleton] at hc; subst hc; exact isDigit_digit (Nat.mod_lt _ (by omega))

theorem digitsValue_append (a : ℕ) (l m : List UInt8) :
    digitsValue a (l ++ m) = digitsValue (digitsValue a l) m := by
  induction l generalizing a with
  | nil => rfl
  | cons c l ih => exact ih _

theorem digitsValue_decimalAux (fuel n : ℕ) (h : n < fuel) :
    digitsValue 0 (decimalAux fuel n []) = n := by
  induction fuel generalizing n with
  | zero => omega
  | succ f ih =>
    simp only [decimalAux]
    split
    · show 10 * 0 + ((n + 48).toUInt8.toNat - 48) = n
      rw [toNat_toUInt8]; omega
    · rw [decimalAux_append, digitsValue_append, ih _ (by omega)]
      show 10 * (n / 10) + ((n % 10 + 48).toUInt8.toNat - 48) = n
      rw [toNat_toUInt8]; omega

theorem decimalAux_ne_nil (f n : ℕ) : decimalAux (f+1) n [] ≠ [] := by
  simp only [decimalAux]
  split
  · simp
  · rw [decimalAux_append]; simp

/-- Nothing that continues a number token follows. -/
def EndsNumber (t : List UInt8) : Prop :=
  ∀ c r, t = c :: r → isDigit c = false ∧ c ≠ 0x2E ∧ c ≠ 0x65 ∧ c ≠ 0x45

theorem spanDigits_append {ds t : List UInt8} (hd : ∀ c ∈ ds, isDigit c = true) (ht : EndsNumber t) :
    spanDigits (ds ++ t) = (ds, t) := by
  induction ds with
  | nil =>
    cases t with
    | nil => rfl
    | cons c r => simp [spanDigits, (ht c r rfl).1]
  | cons c ds ih =>
    simp only [List.mem_cons, forall_eq_or_imp] at hd
    simp [spanDigits, hd.1, ih hd.2]

theorem fracPart_end {t : List UInt8} (ht : EndsNumber t) : fracPart t = some ([], t) := by
  cases t with
  | nil => rfl
  | cons c r => rw [fracPart]; all_goals simp_all [(ht c r rfl).2.1]

theorem expPart_end {t : List UInt8} (ht : EndsNumber t) : expPart t = some ([], t) := by
  cases t with
  | nil => rfl
  | cons c r => simp [expPart, (ht c r rfl).2.2]

theorem parseUnsigned_natDecimal (neg : Bool) (n : ℕ) {t : List UInt8} (ht : EndsNumber t) :
    parseUnsigned neg (natDecimal n ++ t) =
      some (int (clamp int64Min uint64Max (if neg then -(n : ℤ) else n)), t) := by
  obtain ⟨d, ds, hd⟩ := List.exists_cons_of_ne_nil (decimalAux_ne_nil n n)
  have hv := digitsValue_decimalAux (n+1) n (by omega)
  have key := spanDigits_append (decimalAux_isDigit (n+1) n) ht
  simp only [natDecimal]
  rw [hd] at key hv ⊢
  rw [parseUnsigned, key]
  simp [fracPart_end ht, expPart_end ht, hv]

theorem natDecimal_head (n : ℕ) : ∃ d ds, natDecimal n = d :: ds ∧ isDigit d = true := by
  obtain ⟨d, ds, hd⟩ := List.exists_cons_of_ne_nil (decimalAux_ne_nil n n)
  exact ⟨d, ds, hd, decimalAux_isDigit (n+1) n d (by simp [hd])⟩

theorem parseNumber_intDecimal (n : ℤ) {t : List UInt8} (ht : EndsNumber t) :
    parseNumber (intDecimal n ++ t) = some (int (clamp int64Min uint64Max n), t) := by
  rw [intDecimal]
  split
  · rename_i hn
    rw [List.cons_append, parseNumber, parseUnsigned_natDecimal true _ ht]
    have h : -(n.natAbs : ℤ) = n := by omega
    simp only [if_true, h]
  · rename_i hn
    obtain ⟨d, ds, hd, hdig⟩ := natDecimal_head n.toNat
    have hd1 : d ≠ 0x2D := by rintro rfl; revert hdig; decide
    rw [parseNumber.eq_2 _ (by rw [hd]; simpa using hd1), parseUnsigned_natDecimal false _ ht]
    have h : (n.toNat : ℤ) = n := by omega
    simp only [Bool.false_eq_true, if_false, h]


/-! ## Blanks and the first byte of a value -/

theorem skipWs_cons_of_not_space {c : UInt8} (h : isSpace c = false) (r : List UInt8) :
    skipWs (c :: r) = c :: r := by simp [skipWs, h]

theorem skipWs_space (r : List UInt8) : skipWs (0x20 :: r) = skipWs r := by
  simp only [skipWs, show isSpace 0x20 = true from rfl, if_true]

theorem skipWs_skipWs (s : List UInt8) : skipWs (skipWs s) = skipWs s := by
  induction s with
  | nil => rfl
  | cons c r ih => by_cases h : isSpace c <;> simp [skipWs, h, ih]

theorem parseValue_skipWs (d : ℕ) (s : List UInt8) : parseValue d (skipWs s) = parseValue d s := by
  rw [parseValue, parseValue, skipWs_skipWs]

theorem parseMembers_skipWs (value : List UInt8 → Option (JsonObject × List UInt8)) (f : ℕ) acc (s : List UInt8) :
    parseMembers value (f+1) acc (skipWs s) = parseMembers value (f+1) acc s := by
  rw [parseMembers, parseMembers, skipWs_skipWs]

theorem isSpace_iff (c : UInt8) : isSpace c = true ↔ c.toNat = 32 ∨ (9 ≤ c.toNat ∧ c.toNat ≤ 13) := by
  simp only [isSpace, Bool.or_eq_true, Bool.and_eq_true, decide_eq_true_eq, byte_le_iff, byte_eq_iff,
    toNat_byte_lit]

theorem numberHead_facts {b : UInt8} (hb : b = 0x2D ∨ isDigit b = true) :
    isSpace b = false ∧ b ≠ 0x22 ∧ b ≠ 0x7B ∧ b ≠ 0x5B ∧ b ≠ 0x6E ∧ b ≠ 0x74 ∧ b ≠ 0x66 := by
  rcases hb with rfl | hb
  · decide
  · rw [isDigit_iff] at hb
    refine ⟨by rw [← Bool.not_eq_true, isSpace_iff]; omega, ?_⟩
    simp only [byte_eq_iff, toNat_byte_lit, ne_eq]
    omega

theorem parseValue_number (d : ℕ) {b : UInt8} (hb : b = 0x2D ∨ isDigit b = true) (r : List UInt8) :
    parseValue d (b :: r) = parseNumber (b :: r) := by
  obtain ⟨h0, h1, h2, h3, h4, h5, h6⟩ := numberHead_facts hb
  rw [parseValue, skipWs_cons_of_not_space h0]
  simp [h1, h2, h3, h4, h5, h6]


theorem parseValue_quote (d : ℕ) (r : List UInt8) :
    parseValue d (0x22 :: r) = (parseStringBody none r).map fun p => (string p.1, p.2) := by
  rw [parseValue, skipWs_cons_of_not_space (by decide)]
  simp

theorem intDecimal_head (n : ℤ) : ∃ b r, intDecimal n = b :: r ∧ (b = 0x2D ∨ isDigit b = true) := by
  rw [intDecimal]
  split
  · exact ⟨_, _, rfl, .inl rfl⟩
  · obtain ⟨d, ds, hd, hdig⟩ := natDecimal_head n.toNat
    exact ⟨d, ds, hd, .inr hdig⟩

/-! ## Fields, members and objects -/

/-- A field value `send_message_to_agent` writes: a string, or an integer that json-c's reader
keeps as it is. -/
def FlatValue : JsonObject → Prop
  | string _ => True
  | int n => int64Min ≤ n ∧ n ≤ uint64Max
  | _ => False

theorem parseValue_flat (d : ℕ) {v : JsonObject} (hv : FlatValue v) {t : List UInt8}
    (ht : EndsNumber t) : parseValue d (v.toJsonString ++ t) = some (v, t) := by
  cases v with
  | string s =>
    simp only [toJsonString, quoteStr, List.cons_append, List.append_assoc, List.singleton_append]
    rw [parseValue_quote, parseStringBody_escapeStr]
    rfl
  | int n =>
    obtain ⟨b, r, hbr, hb⟩ := intDecimal_head n
    simp only [toJsonString]
    rw [hbr, List.cons_append, parseValue_number d hb, ← List.cons_append, ← hbr,
      parseNumber_intDecimal n ht]
    simp only [FlatValue] at hv
    rw [clamp_of_mem hv.1 hv.2]
  | _ => exact hv.elim

theorem endsNumber_fieldsTail (fs : List (List UInt8 × JsonObject)) (rest : List UInt8) :
    EndsNumber (fieldsTail fs ++ ascii " \x7d" ++ rest) := by
  cases fs with
  | nil => rintro c r h; cases h; decide
  | cons p fs => rintro c r h; simp [fieldsTail, ascii] at h; rw [← h.1]; decide

theorem objectAdd_fresh {fs : List (List UInt8 × JsonObject)} {k : List UInt8} (v : JsonObject)
    (h : k ∉ fs.map Prod.fst) : objectAdd fs k v = fs ++ [(k, v)] := by
  rw [objectAdd, if_neg]
  simpa using fun q hq => h (List.mem_map.mpr ⟨(k, q), hq, rfl⟩)

theorem parseMembers_step (d f : ℕ) (acc : List (List UInt8 × JsonObject)) {k : List UInt8}
    {v : JsonObject} {t : List UInt8} (hv : FlatValue v) (hk : (0 : UInt8) ∉ k)
    (hfresh : k ∉ acc.map Prod.fst) (ht : EndsNumber t) :
    parseMembers (parseValue d) (f+1) acc (quoteStr k ++ ascii ": " ++ v.toJsonString ++ t) =
      match skipWs t with
      | 0x2C :: r => parseMembers (parseValue d) f (acc ++ [(k, v)]) r
      | 0x7D :: r => some (acc ++ [(k, v)], r)
      | _ => none := by
  have e : quoteStr k ++ ascii ": " ++ v.toJsonString ++ t =
      0x22 :: (escapeStr k ++ 0x22 :: (0x3A :: 0x20 :: (v.toJsonString ++ t))) := by
    simp [quoteStr, show ascii ": " = [0x3A, 0x20] from rfl]
  rw [parseMembers, e, skipWs_cons_of_not_space (by decide)]
  simp only [parseStringBody_escapeStr]
  rw [skipWs_cons_of_not_space (by decide)]
  simp only []
  rw [← parseValue_skipWs, skipWs_space, parseValue_skipWs, parseValue_flat d hv ht]
  dsimp only
  rewrite [CStr.prefixOf_of_nul_free hk, objectAdd_fresh v hfresh]
  rfl

theorem fresh_of_nodup {acc fs : List (List UInt8 × JsonObject)} {k : List UInt8}
    {v : JsonObject} (h : ((acc ++ (k, v) :: fs).map Prod.fst).Nodup) : k ∉ acc.map Prod.fst := by
  rw [List.map_append, List.nodup_append] at h
  exact fun hk => h.2.2 hk (List.mem_cons_self _ _)

/-- The members `send_message_to_agent` prints are read back one by one, in order. -/
theorem parseMembers_fields (d : ℕ) (fs : List (List UInt8 × JsonObject)) :
    ∀ (k : List UInt8) (v : JsonObject) (fuel : ℕ) (acc : List (List UInt8 × JsonObject))
      (rest : List UInt8),
      (∀ p ∈ (k, v) :: fs, FlatValue p.2 ∧ (0 : UInt8) ∉ p.1) →
      ((acc ++ (k, v) :: fs).map Prod.fst).Nodup → fs.length < fuel →
      parseMembers (parseValue d) fuel acc
          (quoteStr k ++ ascii ": " ++ v.toJsonString ++ (fieldsTail fs ++ ascii " \x7d" ++ rest)) =
        some (acc ++ (k, v) :: fs, rest) := by
  induction fs with
  | nil =>
    intro k v fuel acc rest hp hnd hfuel
    obtain ⟨f, rfl⟩ : ∃ f, fuel = f + 1 := ⟨fuel - 1, by omega⟩
    have hk := hp (k, v) (List.mem_cons_self _ _)
    rw [parseMembers_step d f acc hk.1 hk.2 (fresh_of_nodup hnd) (endsNumber_fieldsTail [] rest)]
    rfl
  | cons p fs ih =>
    intro k v fuel acc rest hp hnd hfuel
    obtain ⟨f, rfl⟩ : ∃ f, fuel = f + 2 := ⟨fuel - 2, by simp at hfuel; omega⟩
    have hk := hp (k, v) (List.mem_cons_self _ _)
    rw [parseMembers_step d (f+1) acc hk.1 hk.2 (fresh_of_nodup hnd) (endsNumber_fieldsTail _ rest)]
    have e : fieldsTail (p :: fs) ++ ascii " \x7d" ++ rest =
        0x2C :: 0x20 :: (quoteStr p.1 ++ ascii ": " ++ p.2.toJsonString ++ (fieldsTail fs ++
          ascii " \x7d" ++ rest)) := by
      simp [fieldsTail, show ascii ", " = [0x2C, 0x20] from rfl]
    rw [e, skipWs_cons_of_not_space (by decide)]
    simp only []
    rw [← parseMembers_skipWs, skipWs_space, parseMembers_skipWs,
      ih p.1 p.2 (f+1) (acc ++ [(k, v)]) rest (fun q hq => hp q (List.mem_cons_of_mem _ hq))
        (by simpa using hnd) (by simp at hfuel; omega)]
    simp

theorem fieldsTail_length (fs : List (List UInt8 × JsonObject)) :
    fs.length ≤ (fieldsTail fs).length := by
  induction fs with
  | nil => simp
  | cons p fs ih => simp [fieldsTail, show ascii ", " = [0x2C, 0x20] from rfl]; omega

/-- An object of flat fields with distinct NUL-free keys is read back as printed. -/
theorem parseValue_object (d : ℕ) (k : List UInt8) (v : JsonObject)
    (fs : List (List UInt8 × JsonObject)) (rest : List UInt8)
    (hp : ∀ p ∈ (k, v) :: fs, FlatValue p.2 ∧ (0 : UInt8) ∉ p.1)
    (hnd : (((k, v) :: fs).map Prod.fst).Nodup) :
    parseValue (d+1) ((object ((k, v) :: fs)).toJsonString ++ rest) =
      some (object ((k, v) :: fs), rest) := by
  have e : (object ((k, v) :: fs)).toJsonString ++ rest = 0x7B :: 0x20 ::
      (quoteStr k ++ ascii ": " ++ v.toJsonString ++ (fieldsTail fs ++ ascii " \x7d" ++ rest)) := by
    simp [toJsonString, show ascii "\x7b " = [0x7B, 0x20] from rfl]
  obtain ⟨x, hx⟩ : ∃ x, quoteStr k ++ ascii ": " ++ v.toJsonString ++
      (fieldsTail fs ++ ascii " \x7d" ++ rest) = 0x22 :: x := ⟨_, by simp [quoteStr]; rfl⟩
  rw [e, parseValue, skipWs_cons_of_not_space (by decide)]
  simp only [show (0x7B : UInt8) ≠ 0x22 by decide, if_false, if_true]
  rw [skipWs_space, hx, skipWs_cons_of_not_space (by decide)]
  split
  · rename_i h; simp at h
  · rw [← hx, parseMembers_fields d fs k v _ [] rest hp (by simpa using hnd)
        (by have := fieldsTail_length fs; simp; omega)]
    rfl

/-! ## Messages -/

theorem tokenerParse_encodeMessage {msg : AiMessage} (h : msg.WellFormed) :
    tokenerParse (encodeMessage msg) = some (messageJson msg) := by
  have hty : FlatValue (int msg.type) := by
    have := h.type_mem
    simp only [FlatValue, int32Min, int32Max, int64Min, uint64Max] at *; omega
  have hts : FlatValue (int msg.timestamp) := by
    have := h.timestamp_mem
    simp only [FlatValue, int64Min, int64Max, uint64Max] at *; omega
  have hp : ∀ p ∈ [(ascii "type", int msg.type), (ascii "sender", string msg.senderId.bytes),
      (ascii "recipient", string msg.recipientId.bytes),
      (ascii "session", string msg.sessionId.bytes), (ascii "timestamp", int msg.timestamp),
      (ascii "payload", string msg.payload.bytes)], FlatValue p.2 ∧ (0 : UInt8) ∉ p.1 := by
    simp only [List.mem_cons, List.mem_singleton, List.not_mem_nil, or_false, forall_eq_or_imp,
      forall_eq]
    exact ⟨⟨hty, by decide⟩, ⟨trivial, by decide⟩, ⟨trivial, by decide⟩, ⟨trivial, by decide⟩,
      ⟨hts, by decide⟩, ⟨trivial, by decide⟩⟩
  rw [tokenerParse, encodeMessage, ← List.append_nil (messageJson msg).toJsonString, messageJson,
    defaultDepth, parseValue_object 31 _ _ _ [] hp (by simp only [List.map_cons, List.map_nil]; decide)]

theorem objectGetEx_messageJson (msg : AiMessage) :
    (messageJson msg).objectGetEx (ascii "type") = some (int msg.type) ∧
    (messageJson msg).objectGetEx (ascii "sender") = some (string msg.senderId.bytes) ∧
    (messageJson msg).objectGetEx (ascii "recipient") = some (string msg.recipientId.bytes) ∧
    (messageJson msg).objectGetEx (ascii "session") = some (string msg.sessionId.bytes) ∧
    (messageJson msg).objectGetEx (ascii "timestamp") = some (int msg.timestamp) ∧
    (messageJson msg).objectGetEx (ascii "payload") = some (string msg.payload.bytes) :=
  ⟨rfl, rfl, rfl, rfl, rfl, rfl⟩

theorem ofBytes_bytes_self {n : ℕ} (s : CStr n) : CStr.ofBytes n s.bytes = s :=
  CStr.ext (CStr.ofBytes_self s le_rfl)

/-- `parse_message` reads back every well-formed message `send_message_to_agent` prints. -/
theorem parseMessage_encodeMessage {msg : AiMessage} (h : msg.WellFormed) :
    parseMessage (encodeMessage msg) = .ok msg := by
  obtain ⟨h1, h2, h3, h4, h5, h6⟩ := objectGetEx_messageJson msg
  have hty : getInt (int msg.type) = msg.type := by
    have := h.type_mem
    have h64 : clamp int64Min int64Max msg.type = msg.type := by
      simp only [int32Min, int32Max, int64Min, int64Max] at *
      exact clamp_of_mem (by omega) (by omega)
    simp only [getInt, getInt64, h64]
    exact clamp_of_mem this.1 this.2
  have hts : getInt64 (int msg.timestamp) = msg.timestamp := clamp_of_mem h.timestamp_mem.1 h.timestamp_mem.2
  rw [parseMessage, tokenerParse_encodeMessage h]
  simp only [stringField, h1, h2, h3, h4, h5, h6, getString, Option.map_some', Option.getD_some,
    ofBytes_bytes_self, hty, hts, maxMessageSize, ← h.payloadSize_eq]

theorem createMessage_wellFormed (localId : CStr 63) {now : ℤ} (uuid : CStr 63) (type : MessageType)
    (recipient payload : List UInt8) (hnow : int64Min ≤ now ∧ now ≤ int64Max) :
    (createMessage localId now uuid type recipient payload).WellFormed where
  type_mem := by have := type.toInt_mem; simp only [createMessage, int32Min, int32Max]; omega
  timestamp_mem := hnow
  payloadSize_eq := rfl

/-! ## Size on the wire

What `recvfrom` keeps of a printed message: every byte of it, when the payload is short. -/

theorem escapeByte_wire (c : UInt8) : (0 : UInt8) ∉ escapeByte c ∧ (escapeByte c).length ≤ 6 := by
  by_cases hc : c.toNat < 32
  · have h : ∀ n < 32, (0 : UInt8) ∉ escapeByte n.toUInt8 ∧ (escapeByte n.toUInt8).length ≤ 6 := by
      decide
    simpa [toUInt8_toNat] using h c.toNat hc
  · by_cases h1 : c = 0x22; · subst h1; decide
    by_cases h2 : c = 0x5C; · subst h2; decide
    by_cases h3 : c = 0x2F; · subst h3; decide
    rw [escapeByte_plain (by omega) h1 h2 h3]
    simp only [List.mem_singleton, byte_eq_iff, toNat_byte_lit, List.length_singleton]
    omega

theorem nul_free_escapeStr (s : List UInt8) : (0 : UInt8) ∉ escapeStr s := by
  simpa [escapeStr] using fun c _ => (escapeByte_wire c).1

theorem length_escapeStr_le (s : List UInt8) : (escapeStr s).length ≤ 6 * s.length := by
  induction s with
  | nil => rfl
  | cons c s ih =>
    simp only [escapeStr, List.flatMap_cons, List.length_append, List.length_cons] at ih ⊢
    have := (escapeByte_wire c).2
    omega

theorem length_decimalAux_le (fuel n k : ℕ) (h : n < 10 ^ (k+1)) :
    (decimalAux fuel n []).length ≤ k + 1 := by
  induction fuel generalizing n k with
  | zero => simp [decimalAux]
  | succ f ih =>
    simp only [decimalAux]
    split
    · simp
    · rcases k with _ | k
      · simp at h; omega
      · have := ih (n / 10) k ((Nat.div_lt_iff_lt_mul (by decide)).2 (by rwa [← Nat.pow_succ]))
        rw [decimalAux_append, List.length_append, List.length_singleton]
        omega

theorem nul_free_intDecimal (n : ℤ) : (0 : UInt8) ∉ intDecimal n := by
  have hd : ∀ m, (0 : UInt8) ∉ natDecimal m := fun m h =>
    absurd (decimalAux_isDigit (m+1) m 0 h) (by decide)
  unfold intDecimal
  split
  · simpa using hd _
  · exact hd _

theorem length_intDecimal_le {n : ℤ} (h : int64Min ≤ n ∧ n ≤ int64Max) :
    (intDecimal n).length ≤ 20 := by
  have hd : ∀ m < 10 ^ 19, (natDecimal m).length ≤ 19 := fun m hm => length_decimalAux_le _ m 18 hm
  simp only [int64Min, int64Max] at h
  unfold intDecimal
  split
  · simp only [List.length_cons]
    have := hd n.natAbs (by omega)
    omega
  · have := hd n.toNat (by omega)
    omega

theorem length_encodeMessage (msg : AiMessage) :
    (encodeMessage msg).length = 88 + (intDecimal msg.type).length + (intDecimal msg.timestamp).length +
      (escapeStr msg.senderId.bytes).length + (escapeStr msg.recipientId.bytes).length +
      (escapeStr msg.sessionId.bytes).length + (escapeStr msg.payload.bytes).length := by
  have hk : (escapeStr (ascii "type")).length = 4 ∧ (escapeStr (ascii "sender")).length = 6 ∧
      (escapeStr (ascii "recipient")).length = 9 ∧ (escapeStr (ascii "session")).length = 7 ∧
      (escapeStr (ascii "timestamp")).length = 9 ∧ (escapeStr (ascii "payload")).length = 7 ∧
      (ascii "\x7b ").length = 2 ∧ (ascii ": ").length = 2 ∧ (ascii ", ").length = 2 ∧
      (ascii " \x7d").length = 2 := by decide
  simp only [encodeMessage, messageJson, toJsonString, fieldsTail, quoteStr, List.length_append,
    List.length_cons, List.length_nil]
  omega

theorem nul_free_encodeMessage (msg : AiMessage) : (0 : UInt8) ∉ encodeMessage msg := by
  have hk : (0 : UInt8) ∉ ascii "\x7b " ∧ (0 : UInt8) ∉ ascii ": " ∧ (0 : UInt8) ∉ ascii ", " ∧
      (0 : UInt8) ∉ ascii " \x7d" := by decide
  simp only [encodeMessage, messageJson, toJsonString, fieldsTail, quoteStr, List.mem_append,
    List.mem_cons, List.mem_singleton, nul_free_escapeStr, nul_free_intDecimal, hk, or_false, false_or]
  decide

/-- A message with a payload of at most 1154 bytes prints within the receive buffer, whatever
its bytes: each of them, and of the three ids, takes at most six bytes escaped. -/
theorem encodeMessage_fits {msg : AiMessage} (h : msg.WellFormed)
    (hp : msg.payload.bytes.length ≤ 1154) : (encodeMessage msg).length ≤ maxMessageSize - 1 := by
  have h32 : int64Min ≤ msg.type ∧ msg.type ≤ int64Max := by
    have := h.type_mem; simp only [int32Min, int32Max, int64Min, int64Max] at *; omega
  have := length_intDecimal_le h32
  have := length_intDecimal_le h.timestamp_mem
  have := length_escapeStr_le msg.senderId.bytes
  have := length_escapeStr_le msg.recipientId.bytes
  have := length_escapeStr_le msg.sessionId.bytes
  have := length_escapeStr_le msg.payload.bytes
  have := msg.senderId.fits
  have := msg.recipientId.fits
  have := msg.sessionId.fits
  rw [length_encodeMessage, maxMessageSize]
  omega

/-! ## The round trip on the spec's wire fields -/

/-- The six fields of a wire message, as byte strings. -/
structure WireMessage where
  type : MessageType
  senderId : List UInt8
  recipientId : List UInt8
  sessionId : List UInt8
  timestamp : ℤ
  payload : List UInt8

/-- `m` held in an `ai_message_t` the way the code fills one: `strncpy` of each id into its
`char[64]`, the payload clamped to `MAX_MESSAGE_SIZE - 1` bytes with `payload_size` set to the
copied length. -/
def loadMessage (m : WireMessage) : AiMessage :=
  let payload : CStr 8191 := CStr.ofBytes (maxMessageSize - 1) m.payload
  { type := m.type.toInt
    senderId := CStr.ofBytes 63 m.senderId
    recipientId := CStr.ofBytes 63 m.recipientId
    sessionId := CStr.ofBytes 63 m.sessionId
    timestamp := m.timestamp
    payloadSize := payload.bytes.length
    payload := payload }

/-- `msg` has exactly the fields of `m`. -/
def AiMessage.Carries (msg : AiMessage) (m : WireMessage) : Prop :=
  msg.type = m.type.toInt ∧ msg.senderId.bytes = m.senderId ∧
    msg.recipientId.bytes = m.recipientId ∧ msg.sessionId.bytes = m.sessionId ∧
    msg.timestamp = m.timestamp ∧ msg.payload.bytes = m.payload ∧ msg.payloadSize = m.payload.length

def Fits (n : ℕ) (s : List UInt8) : Prop := (0 : UInt8) ∉ s ∧ s.length ≤ n

/-- `m` comes back from printing and reading with every field. -/
def RoundTrips (m : WireMessage) : Prop :=
  ∃ msg, parseMessage (encodeMessage (loadMessage m)) = .ok msg ∧ msg.Carries m

/-- The spec's wire bounds: ids of at most 64 bytes, a payload of at most 8192, a 64-bit
timestamp. -/
def WithinWireBounds (m : WireMessage) : Prop :=
  Fits 64 m.senderId ∧ Fits 64 m.recipientId ∧ Fits 64 m.sessionId ∧
    Fits maxMessageSize m.payload ∧ int64Min ≤ m.timestamp ∧ m.timestamp ≤ int64Max

theorem loadMessage_wellFormed (m : WireMessage)
    (hts : int64Min ≤ m.timestamp ∧ m.timestamp ≤ int64Max) : (loadMessage m).WellFormed where
  type_mem := by
    have := m.type.toInt_mem
    simp only [loadMessage, int32Min, int32Max]; omega
  timestamp_mem := hts
  payloadSize_eq := rfl

theorem parseMessage_encodeMessage_loadMessage (m : WireMessage)
    (hts : int64Min ≤ m.timestamp ∧ m.timestamp ≤ int64Max) :
    parseMessage (encodeMessage (loadMessage m)) = .ok (loadMessage m) :=
  parseMessage_encodeMessage (loadMessage_wellFormed m hts)

/-- Printing a message with `send_message_to_agent`'s JSON and reading it with `parse_message`
gives back every field, for ids of at most 63 bytes and payloads of at most
`MAX_MESSAGE_SIZE - 1` bytes. -/
theorem codec_roundTrip (m : WireMessage) (hs : Fits 63 m.senderId) (hr : Fits 63 m.recipientId)
    (hsid : Fits 63 m.sessionId) (hp : Fits (maxMessageSize - 1) m.payload)
    (hts : int64Min ≤ m.timestamp ∧ m.timestamp ≤ int64Max) : RoundTrips m := by
  refine ⟨loadMessage m, parseMessage_encodeMessage_loadMessage m hts, ?_⟩
  simp only [AiMessage.Carries, loadMessage, CStr.ofBytes_of_fits hs.1 hs.2,
    CStr.ofBytes_of_fits hr.1 hr.2, CStr.ofBytes_of_fits hsid.1 hsid.2,
    CStr.ofBytes_of_fits hp.1 hp.2, and_self]

theorem codec_roundTrip_ls :
    RoundTrips ⟨.taskRequest, ascii "agent-a", ascii "agent-b", ascii "session-1", 0, ascii "ls"⟩ :=
  codec_roundTrip _ ⟨by decide, by decide⟩ ⟨by decide, by decide⟩ ⟨by decide, by decide⟩
    ⟨by decide, by decide⟩ (by decide)

/-- A message whose field `f` is one byte longer than the copy keeps does not come back. -/
theorem not_roundTrips_of_long {m : WireMessage} (f : AiMessage → List UInt8) (n : ℕ)
    (hf : (f (loadMessage m)).length ≤ n)
    (hts : int64Min ≤ m.timestamp ∧ m.timestamp ≤ int64Max)
    (hlong : ∀ msg, msg.Carries m → (f msg).length = n + 1) : ¬ RoundTrips m := by
  rintro ⟨msg, hparse, hc⟩
  rw [parseMessage_encodeMessage_loadMessage m hts] at hparse
  cases hparse
  have := hlong _ hc
  omega

/-- At the spec's bounds the round trip fails: a 64-byte id loses its last byte in the
`char[64]` copy, and an 8192-byte payload its last byte in the clamp. -/
theorem codec_roundTrip_fails_at_bounds :
    (∃ m, WithinWireBounds m ∧ m.payload = [] ∧ ¬ RoundTrips m) ∧
    (∃ m, WithinWireBounds m ∧ Fits 63 m.senderId ∧ Fits 63 m.recipientId ∧
      Fits 63 m.sessionId ∧ ¬ RoundTrips m) := by
  have hts : int64Min ≤ (0 : ℤ) ∧ (0 : ℤ) ≤ int64Max := by decide
  refine ⟨⟨⟨.discovery, List.replicate 64 0x61, [], [], 0, []⟩, ?_, rfl, ?_⟩,
    ⟨⟨.discovery, [], [], [], 0, List.replicate 8192 0x61⟩, ?_, ?_, ?_, ?_, ?_⟩⟩
  · exact ⟨⟨by simp, by simp⟩, ⟨by simp, by simp⟩, ⟨by simp, by simp⟩, ⟨by simp, by simp⟩, hts⟩
  · exact not_roundTrips_of_long (fun msg => msg.senderId.bytes) 63 (CStr.fits _) hts
      fun msg hc => by simp [hc.2.1]
  · exact ⟨⟨by simp, by simp⟩, ⟨by simp, by simp⟩, ⟨by simp, by simp⟩,
      ⟨by simp only [List.mem_replicate]; decide, by simp only [List.length_replicate]; decide⟩, hts⟩
  · exact ⟨by simp, by simp⟩
  · exact ⟨by simp, by simp⟩
  · exact ⟨by simp, by simp⟩
  · exact not_roundTrips_of_long (fun msg => msg.payload.bytes) 8191 (CStr.fits _) hts
      fun msg hc => by show msg.payload.bytes.length = _; rw [hc.2.2.2.2.2.1, List.length_replicate]

end DistributedAi
