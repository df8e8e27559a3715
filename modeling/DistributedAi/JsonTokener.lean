import DistributedAi.JsonObject

/-! `json_tokener_parse` on the JSON grammar, objects and arrays nested at most
`JSON_TOKENER_DEFAULT_DEPTH` deep. json-c's lenient extras (comments, single quotes, trailing
commas, case-blind literals) are not read. -/
namespace DistributedAi
namespace JsonObject

def skipWs : List UInt8 → List UInt8
  | c :: r => if isSpace c then skipWs r else c :: r
  | [] => []

def hexVal (c : UInt8) : Option ℕ :=
  if 0x30 ≤ c ∧ c ≤ 0x39 then some (c.toNat - 48)
  else if 0x61 ≤ c ∧ c ≤ 0x66 then some (c.toNat - 87)
  else if 0x41 ≤ c ∧ c ≤ 0x46 then some (c.toNat - 55)
  else none

def hex4 (a b c d : UInt8) : Option ℕ := do
  let a ← hexVal a
  let b ← hexVal b
  let c ← hexVal c
  let d ← hexVal d
  pure (((a * 16 + b) * 16 + c) * 16 + d)

def utf8 (cp : ℕ) : List UInt8 :=
  if cp < 0x80 then [cp.toUInt8]
  else if cp < 0x800 then [(0xC0 + cp / 64).toUInt8, (0x80 + cp % 64).toUInt8]
  else if cp < 0x10000 then
    [(0xE0 + cp / 4096).toUInt8, (0x80 + cp / 64 % 64).toUInt8, (0x80 + cp % 64).toUInt8]
  else [(0xF0 + cp / 262144).toUInt8, (0x80 + cp / 4096 % 64).toUInt8,
    (0x80 + cp / 64 % 64).toUInt8, (0x80 + cp % 64).toUInt8]

/-- `utf8_replacement_char`, put for a surrogate that is not half of a pair. -/
def replacementChar : List UInt8 := [0xEF, 0xBF, 0xBD]

def unescapeByte : UInt8 → Option UInt8
  | 0x62 => some 0x08
  | 0x6E => some 0x0A
  | 0x72 => some 0x0D
  | 0x74 => some 0x09
  | 0x66 => some 0x0C
  | 0x22 => some 0x22
  | 0x5C => some 0x5C
  | 0x2F => some 0x2F
  | _ => none

def consStr (pre : List UInt8) : Option (List UInt8 × List UInt8) → Option (List UInt8 × List UInt8)
  | some (s, r) => some (pre ++ s, r)
  | none => none

@[simp] theorem consStr_some (pre s r : List UInt8) : consStr pre (some (s, r)) = some (pre ++ s, r) :=
  rfl
@[simp] theorem consStr_none (pre : List UInt8) : consStr pre none = none := rfl

/-- The bytes of one `\\uXXXX` escape read on its own: UTF-8, or the replacement for a
surrogate. -/
def unitBytes (cp : ℕ) : List UInt8 :=
  if 0xD800 ≤ cp ∧ cp < 0xE000 then replacementChar else utf8 cp

def flushHigh : Option ℕ → List UInt8
  | some _ => replacementChar
  | none => []

/-- A string token after its opening quote: the bytes it denotes and what follows the closing
quote. `high` is a high surrogate escape waiting for the low one that may follow, as in json-c's
`high_surrogate`. -/
def parseStringBody (high : Option ℕ) : List UInt8 → Option (List UInt8 × List UInt8)
  | [] => none
  | 0x22 :: r => some (flushHigh high, r)
  | 0x5C :: 0x75 :: a :: b :: c :: d :: r =>
    match hex4 a b c d with
    | none => none
    | some cp =>
      match high with
      | some hi =>
        if 0xDC00 ≤ cp ∧ cp < 0xE000 then
          consStr (utf8 (0x10000 + (hi - 0xD800) * 1024 + (cp - 0xDC00))) (parseStringBody none r)
        else if 0xD800 ≤ cp ∧ cp < 0xDC00 then consStr replacementChar (parseStringBody (some cp) r)
        else consStr (replacementChar ++ unitBytes cp) (parseStringBody none r)
      | none =>
        if 0xD800 ≤ cp ∧ cp < 0xDC00 then parseStringBody (some cp) r
        else consStr (unitBytes cp) (parseStringBody none r)
  | 0x5C :: e :: r =>
    match unescapeByte e with
    | some b => consStr (flushHigh high ++ [b]) (parseStringBody none r)
    | none => none
  | c :: r => consStr (flushHigh high ++ [c]) (parseStringBody none r)

def fracPart : List UInt8 → Option (List UInt8 × List UInt8)
  | 0x2E :: r =>
    match spanDigits r with
    | ([], _) => none
    | (ds, r') => some (0x2E :: ds, r')
  | r => some ([], r)

def expPart : List UInt8 → Option (List UInt8 × List UInt8)
  | e :: r =>
    if e = 0x65 ∨ e = 0x45 then
      let (sg, r) : List UInt8 × List UInt8 := match r with
        | 0x2B :: r' => ([0x2B], r')
        | 0x2D :: r' => ([0x2D], r')
        | r' => ([], r')
      match spanDigits r with
      | ([], _) => none
      | (ds, r') => some (e :: sg ++ ds, r')
    else some ([], e :: r)
  | [] => some ([], [])

def uint64Max : ℤ := 2^64 - 1

/-- A number token after its sign. An integer is read through `strtoll` (negative) or
`strtoull`, saturating; a token with a fraction or an exponent is a `double`, kept as its
text. -/
def parseUnsigned (neg : Bool) (t : List UInt8) : Option (JsonObject × List UInt8) :=
  match spanDigits t with
  | ([], _) => none
  | (ip, t) => do
    let (fp, t) ← fracPart t
    let (ep, t) ← expPart t
    if fp = [] ∧ ep = [] then
      let v : ℤ := digitsValue 0 ip
      pure (int (clamp int64Min uint64Max (if neg then -v else v)), t)
    else pure (double ((if neg then [0x2D] else []) ++ ip ++ fp ++ ep), t)

def parseNumber : List UInt8 → Option (JsonObject × List UInt8)
  | 0x2D :: r => parseUnsigned true r
  | r => parseUnsigned false r

/-- `json_object_object_add`: a new key goes last, a present key takes the new value in place. -/
def objectAdd (fs : List (List UInt8 × JsonObject)) (k : List UInt8) (v : JsonObject) :
    List (List UInt8 × JsonObject) :=
  if fs.any (·.1 = k) then fs.map fun p => if p.1 = k then (k, v) else p else fs ++ [(k, v)]

/-- The members of an object after `{`, each `"key" : value` followed by `,` or the closing `}`.
A key is kept as the C string `strdup` copies; `fuel` bounds the members. -/
def parseMembers (value : List UInt8 → Option (JsonObject × List UInt8)) :
    ℕ → List (List UInt8 × JsonObject) → List UInt8 →
      Option (List (List UInt8 × JsonObject) × List UInt8)
  | 0, _, _ => none
  | fuel+1, acc, s =>
    match skipWs s with
    | 0x22 :: r =>
      match parseStringBody none r with
      | none => none
      | some (key, r) =>
        match skipWs r with
        | 0x3A :: r =>
          match value r with
          | none => none
          | some (v, r) =>
            let acc := objectAdd acc (CStr.prefixOf key) v
            match skipWs r with
            | 0x2C :: r => parseMembers value fuel acc r
            | 0x7D :: r => some (acc, r)
            | _ => none
        | _ => none
    | _ => none

def parseItems (value : List UInt8 → Option (JsonObject × List UInt8)) :
    ℕ → List JsonObject → List UInt8 → Option (List JsonObject × List UInt8)
  | 0, _, _ => none
  | fuel+1, acc, s =>
    match value s with
    | none => none
    | some (v, r) =>
      match skipWs r with
      | 0x2C :: r => parseItems value fuel (acc ++ [v]) r
      | 0x5D :: r => some (acc ++ [v], r)
      | _ => none

/-- One value after optional blanks; `depth` bounds how many arrays and objects may still
open. -/
def parseValue : ℕ → List UInt8 → Option (JsonObject × List UInt8)
  | depth, s =>
    match skipWs s with
    | [] => none
    | c :: r =>
      if c = 0x22 then (parseStringBody none r).map fun p => (string p.1, p.2)
      else if c = 0x7B then
        match depth with
        | 0 => none
        | d+1 =>
          match skipWs r with
          | 0x7D :: r' => some (object [], r')
          | r' => (parseMembers (parseValue d) (r'.length + 1) [] r').map fun p => (object p.1, p.2)
      else if c = 0x5B then
        match depth with
        | 0 => none
        | d+1 =>
          match skipWs r with
          | 0x5D :: r' => some (array [], r')
          | r' => (parseItems (parseValue d) (r'.length + 1) [] r').map fun p => (array p.1, p.2)
      else if c = 0x6E then
        match r with
        | 0x75 :: 0x6C :: 0x6C :: r' => some (null, r')
        | _ => none
      else if c = 0x74 then
        match r with
        | 0x72 :: 0x75 :: 0x65 :: r' => some (boolean true, r')
        | _ => none
      else if c = 0x66 then
        match r with
        | 0x61 :: 0x6C :: 0x73 :: 0x65 :: r' => some (boolean false, r')
        | _ => none
      else parseNumber (c :: r)

def defaultDepth : ℕ := 32

/-- `json_tokener_parse` of a C string: one value; json-c ignores whatever follows it. The result
is `NULL` on a syntax error and also for the text `null`, which json-c represents by `NULL`. -/
def tokenerParse (s : List UInt8) : Option JsonObject :=
  match parseValue defaultDepth s with
  | none | some (null, _) => none
  | some (v, _) => some v

example : tokenerParse (ascii "\x7b \"a\": [1, -2, 3.5e1], \"b\": \"x\\ny\\u0041\" \x7d tail") =
    some (object [(ascii "a", array [int 1, int (-2), double (ascii "3.5e1")]),
      (ascii "b", string (ascii "x\nyA"))]) := by
  rfl

example : tokenerParse (ascii " null") = none := by
  rfl

end JsonObject

end DistributedAi
