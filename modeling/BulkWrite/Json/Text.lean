/-!
The body of a JSON string. An escape gives a character or a 16-bit code unit; units outside the
basic plane come in pairs, and a unit without its partner is an error. No body decodes to a longer
string.
-/
namespace BulkWrite.Json.Text

/-- What one character or escape of the body gives. -/
inductive Element where
  | char (c : Char)
  | codeUnit (n : Nat)
  deriving DecidableEq

def escaped? : Char → Option Char
  | '"' => some '"'
  | '\\' => some '\\'
  | '/' => some '/'
  | 'b' => some '\x08'
  | 'f' => some '\x0c'
  | 'n' => some '\n'
  | 'r' => some '\r'
  | 't' => some '\t'
  | _ => none

def hexDigit? (c : Char) : Option Nat :=
  if '0' ≤ c ∧ c ≤ '9' then some (c.toNat - '0'.toNat)
  else if 'a' ≤ c ∧ c ≤ 'f' then some (c.toNat - 'a'.toNat + 10)
  else if 'A' ≤ c ∧ c ≤ 'F' then some (c.toNat - 'A'.toNat + 10)
  else none

def hexValue? (cs : List Char) : Option Nat :=
  cs.foldlM (fun n c => (hexDigit? c).map (n * 16 + ·)) 0

def isControl (c : Char) : Bool := c.toNat < 0x20

def elements? : List Char → Option (List Element)
  | [] => some []
  | '\\' :: 'u' :: a :: b :: c :: d :: rest => do
    let n ← hexValue? [a, b, c, d]
    return .codeUnit n :: (← elements? rest)
  | '\\' :: e :: rest => do
    let c ← escaped? e
    return .char c :: (← elements? rest)
  | c :: rest =>
    if c = '\\' ∨ isControl c then none
    else (elements? rest).map (.char c :: ·)

def isHighSurrogate (n : Nat) : Bool := 0xD800 ≤ n && n < 0xDC00

def isLowSurrogate (n : Nat) : Bool := 0xDC00 ≤ n && n < 0xE000

/-- The character that a pair of surrogates encodes. -/
def ofSurrogates (high low : Nat) : Char :=
  .ofNat (0x10000 + (high - 0xD800) * 0x400 + (low - 0xDC00))

def characters? : List Element → Option (List Char)
  | [] => some []
  | .char c :: rest => (characters? rest).map (c :: ·)
  | .codeUnit high :: .codeUnit low :: rest =>
    if isHighSurrogate high && isLowSurrogate low then
      (characters? rest).map (ofSurrogates high low :: ·)
    else if isHighSurrogate high || isLowSurrogate high then none
    else (characters? (.codeUnit low :: rest)).map (.ofNat high :: ·)
  | .codeUnit n :: rest =>
    if isHighSurrogate n || isLowSurrogate n then none
    else (characters? rest).map (.ofNat n :: ·)

def decode? (body : List Char) : Option String := do
  let elements ← elements? body
  let characters ← characters? elements
  return .ofList characters

theorem length_le_of_elements? {body : List Char} {es : List Element}
    (h : elements? body = some es) : es.length ≤ body.length := by
  fun_induction elements? body generalizing es <;>
    grind [Option.bind_eq_bind, Option.bind_eq_some_iff, Option.map_eq_some_iff]

theorem length_le_of_characters? {es : List Element} {cs : List Char}
    (h : characters? es = some cs) : cs.length ≤ es.length := by
  fun_induction characters? es generalizing cs <;> grind [Option.map_eq_some_iff]

theorem length_le_of_decode? {body : List Char} {s : String} (h : decode? body = some s) :
    s.length ≤ body.length := by
  simp only [decode?, Option.bind_eq_bind, Option.bind_eq_some_iff, Option.pure_def,
    Option.some.injEq] at h
  obtain ⟨es, hes, cs, hcs, rfl⟩ := h
  rw [String.length_ofList]
  exact Nat.le_trans (length_le_of_characters? hcs) (length_le_of_elements? hes)

end BulkWrite.Json.Text
