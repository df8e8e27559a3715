import DistributedAi.CString

/-! The part of json-c that the codec of `distributed_ai.c` goes through: the `json_object`
tree, `json_object_to_json_string` (its default flag `JSON_C_TO_STRING_SPACED`) with
`json_escape_str`, and the getters `parse_message` reads the six fields with. -/
namespace DistributedAi

/-- A `json_object` tree. `null` is the `NULL` pointer json-c stands JSON `null` by; a
`double` keeps the text of its token, which is what json-c prints it back as. Object fields
keep insertion order with one entry per key, as `json_object_object_add` keeps them. -/
inductive JsonObject
  | null
  | boolean (b : Bool)
  | int (n : ℤ)
  | double (text : List UInt8)
  | string (s : List UInt8)
  | array (items : List JsonObject)
  | object (fields : List (List UInt8 × JsonObject))

namespace JsonObject

/-! ## Printing -/

/-- Lower-case hex digit of `d < 16`, from `json_hex_chars`. -/
def hexChar (d : ℕ) : UInt8 := (if d < 10 then 48 + d else 87 + d).toUInt8

/-- `json_escape_str` on one byte: the six short escapes, `\/`, and `\u00XX` for the other
control bytes; every other byte is copied. -/
def escapeByte (c : UInt8) : List UInt8 :=
  match c with
  | 0x08 => [0x5C, 0x62]
  | 0x0A => [0x5C, 0x6E]
  | 0x0D => [0x5C, 0x72]
  | 0x09 => [0x5C, 0x74]
  | 0x0C => [0x5C, 0x66]
  | 0x22 => [0x5C, 0x22]
  | 0x5C => [0x5C, 0x5C]
  | 0x2F => [0x5C, 0x2F]
  | c => if c < 0x20 then [0x5C, 0x75, 0x30, 0x30, hexChar (c.toNat / 16), hexChar (c.toNat % 16)]
    else [c]

/-- `json_escape_str`. -/
def escapeStr (s : List UInt8) : List UInt8 := s.flatMap escapeByte

def quoteStr (s : List UInt8) : List UInt8 := 0x22 :: escapeStr s ++ [0x22]

def decimalAux : ℕ → ℕ → List UInt8 → List UInt8
  | 0, _, acc => acc
  | fuel+1, n, acc =>
    if n < 10 then (n + 48).toUInt8 :: acc
    else decimalAux fuel (n / 10) ((n % 10 + 48).toUInt8 :: acc)

/-- `printf("%" PRIu64, n)`. -/
def natDecimal (n : ℕ) : List UInt8 := decimalAux (n+1) n []

/-- `printf("%" PRId64, n)`. -/
def intDecimal (n : ℤ) : List UInt8 :=
  if n < 0 then 0x2D :: natDecimal n.natAbs else natDecimal n.toNat

mutual
/-- `json_object_to_json_string`: `JSON_C_TO_STRING_SPACED` puts a blank after `[`, `{` and
each comma, after each key's colon, and before the closing bracket. -/
def toJsonString : JsonObject → List UInt8
  | null => ascii "null"
  | boolean b => ascii (if b then "true" else "false")
  | int n => intDecimal n
  | double text => text
  | string s => quoteStr s
  | array [] => ascii "[ ]"
  | array (j :: js) => ascii "[ " ++ toJsonString j ++ itemsTail js ++ ascii " ]"
  | object [] => ascii "\x7b \x7d"
  | object ((k, j) :: fs) =>
    ascii "\x7b " ++ quoteStr k ++ ascii ": " ++ toJsonString j ++ fieldsTail fs ++ ascii " \x7d"
def itemsTail : List JsonObject → List UInt8
  | [] => []
  | j :: js => ascii ", " ++ toJsonString j ++ itemsTail js
def fieldsTail : List (List UInt8 × JsonObject) → List UInt8
  | [] => []
  | (k, j) :: fs => ascii ", " ++ quoteStr k ++ ascii ": " ++ toJsonString j ++ fieldsTail fs
end

/-! ## Reading -/

/-- `isspace` in the C locale. -/
def isSpace (c : UInt8) : Bool := c = 0x20 || (0x09 ≤ c && c ≤ 0x0D)

def isDigit (c : UInt8) : Bool := 0x30 ≤ c && c ≤ 0x39

def spanDigits : List UInt8 → List UInt8 × List UInt8
  | c :: r => if isDigit c then let p := spanDigits r; (c :: p.1, p.2) else ([], c :: r)
  | [] => ([], [])

def digitsValue (acc : ℕ) : List UInt8 → ℕ
  | [] => acc
  | c :: r => digitsValue (10 * acc + (c.toNat - 48)) r

def int64Min : ℤ := -2^63
def int64Max : ℤ := 2^63 - 1
def int32Min : ℤ := -2^31
def int32Max : ℤ := 2^31 - 1

def clamp (lo hi n : ℤ) : ℤ := max lo (min hi n)

theorem clamp_of_mem {lo hi n : ℤ} (h1 : lo ≤ n) (h2 : n ≤ hi) : clamp lo hi n = n := by
  simp only [clamp]; omega

/-- `json_parse_int64`, that is `strtoll(buf, &end, 10)`: blanks, a sign, then digits, the value
saturating at the `int64_t` bounds; `none` when no digit follows. -/
def parseInt64 (s : List UInt8) : Option ℤ :=
  let s := s.dropWhile isSpace
  let (neg, s) := match s with
    | 0x2D :: r => (true, r)
    | 0x2B :: r => (false, r)
    | r => (false, r)
  match spanDigits s with
  | ([], _) => none
  | (ds, _) => let v : ℤ := digitsValue 0 ds; some (clamp int64Min int64Max (if neg then -v else v))

def exponent (t : List UInt8) : ℤ :=
  match t with
  | 0x2D :: r => -(digitsValue 0 (spanDigits r).1 : ℤ)
  | 0x2B :: r => digitsValue 0 (spanDigits r).1
  | r => digitsValue 0 (spanDigits r).1

/-- The `double` a number token denotes, cut toward zero: the exact decimal value is cut,
where json-c first rounds to the nearest `double`; the two differ only within one unit in the
last place of an integer. Exponents are capped where the later clamp to 64 bits no longer
sees them. -/
def truncDouble (text : List UInt8) : ℤ :=
  let (neg, t) := match text with
    | 0x2D :: r => (true, r)
    | r => (false, r)
  let (ip, t) := spanDigits t
  let (fp, t) := match t with
    | 0x2E :: r => spanDigits r
    | r => ([], r)
  let e : ℤ := (match t with
    | 0x65 :: r => exponent r
    | 0x45 :: r => exponent r
    | _ => 0) - fp.length
  let m := digitsValue 0 (ip ++ fp)
  let v : ℕ :=
    if 0 ≤ e then m * 10 ^ min e.toNat 20 else m / 10 ^ min (-e).toNat (ip.length + fp.length + 1)
  if neg then -(v : ℤ) else v

/-- `json_object_object_get_ex(obj, key, &v)`: `some v` when `obj` is an object holding `key`. -/
def objectGetEx : JsonObject → List UInt8 → Option JsonObject
  | object fs, key => fs.lookup key
  | _, _ => none

/-- `json_object_get_string`: the string itself, the printed form of any other value, and
`none` for the `NULL` of JSON `null`. -/
def getString : JsonObject → Option (List UInt8)
  | null => none
  | string s => some s
  | j => some j.toJsonString

def getInt64 : JsonObject → ℤ
  | boolean b => if b then 1 else 0
  | int n => clamp int64Min int64Max n
  | double t => clamp int64Min int64Max (truncDouble t)
  | string s => (parseInt64 s).getD 0
  | _ => 0

/-- `json_object_get_int`: the 64-bit reading saturated to `int32_t`. -/
def getInt : JsonObject → ℤ
  | double t => clamp int32Min int32Max (truncDouble t)
  | j => clamp int32Min int32Max (getInt64 j)

end JsonObject

end DistributedAi
