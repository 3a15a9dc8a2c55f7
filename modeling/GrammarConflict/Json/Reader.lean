import GrammarConflict.Value
import GrammarConflict.Json.Fault

/-!
# Reading the data format

`read` takes a text apart into one value.  Beside the standard's values it knows `NaN`, `Infinity`
and `-Infinity`.  A number with a point or an exponent is a floating point number, any other a whole
number, which may not have more than `Text.mostDigits` digits.  Of a repeated key the first place
and the last value count.

Each part of the reader gets the characters that are left and gives back what it read with the
characters after it, which are fewer; that is why reading ends.  When it fails, it gives the
characters left at the fault, and `read` turns their number into a place.
-/

namespace GrammarConflict.Json

/-- A cause together with the characters from the fault on. -/
structure Stop where
  cause : Cause
  left : List Char

/-- What was read, and the characters after it, fewer than `bound`. -/
structure Parsed (bound : Nat) (α : Type) where
  result : α
  rest : List Char
  rest_lt : rest.length < bound

/-- Changes what was read, and not what is left. -/
def Parsed.map {bound : Nat} {α β : Type} (f : α → β) (p : Parsed bound α) : Parsed bound β :=
  ⟨f p.result, p.rest, p.rest_lt⟩

/-- A larger bound holds too. -/
def Parsed.weaken {bound larger : Nat} {α : Type} (p : Parsed bound α) (h : bound ≤ larger) :
    Parsed larger α :=
  ⟨p.result, p.rest, Nat.lt_of_lt_of_le p.rest_lt h⟩

/-! ### Blanks -/

/-- The blanks between two tokens. -/
def isGap (c : Char) : Bool :=
  c == ' ' || c == '\t' || c == '\n' || c == '\r'

/-- The text from the next token on. -/
def skipGap (s : List Char) : List Char :=
  s.dropWhile isGap

theorem length_skipGap_le (s : List Char) : (skipGap s).length ≤ s.length :=
  (List.dropWhile_suffix isGap).length_le

/-! ### Text -/

/-- The value of a hexadecimal digit. -/
def hexValue? (c : Char) : Option Nat :=
  if '0' ≤ c ∧ c ≤ '9' then some (c.toNat - '0'.toNat)
  else if 'a' ≤ c ∧ c ≤ 'f' then some (c.toNat - 'a'.toNat + 10)
  else if 'A' ≤ c ∧ c ≤ 'F' then some (c.toNat - 'A'.toNat + 10)
  else none

/-- The value of four hexadecimal digits. -/
def code? (a b c d : Char) : Option Nat := do
  return (((← hexValue? a) * 16 + (← hexValue? b)) * 16 + (← hexValue? c)) * 16 + (← hexValue? d)

/-- Reads a code from its letter on.  A text cannot end right after it. -/
def readCode : (s : List Char) → Except Stop (Parsed s.length Nat)
  | letter :: a :: b :: c :: d :: next :: rest =>
    match code? a b c d with
    | some code => .ok ⟨code, next :: rest, by simp⟩
    | none => .error ⟨.malformedCode, letter :: a :: b :: c :: d :: next :: rest⟩
  | s => .error ⟨.malformedCode, s⟩

/-- The character of a code.  A half of a pair that stands alone is shown by the replacement
character. -/
def charOfCode (code : Nat) : Char :=
  if 0xd800 ≤ code ∧ code < 0xe000 then '\ufffd' else Char.ofNat code

/-- The character of two codes, if they are the halves of one. -/
def pair? (high low : Nat) : Option Char :=
  if 0xdc00 ≤ low ∧ low < 0xe000 then
    some (Char.ofNat (0x10000 + (high - 0xd800) * 0x400 + (low - 0xdc00)))
  else none

/-- Reads a character given by one code or by two, from the letter of the first on. -/
def readCoded (s : List Char) : Except Stop (Parsed s.length Char) := do
  let first ← readCode s
  let alone : Parsed s.length Char := first.map charOfCode
  if 0xd800 ≤ first.result ∧ first.result < 0xdc00 then
    match h : first.rest with
    | '\\' :: 'u' :: more =>
      if more.length < 5 then return alone
      let second ← readCode ('u' :: more)
      match pair? first.result second.result with
      | some c => return ⟨c, second.rest, by
          have h₁ := first.rest_lt
          have h₂ := second.rest_lt
          simp [h] at h₁ h₂
          omega⟩
      | none => return alone
    | _ => return alone
  else return alone

/-- The character that a letter after a backslash stands for. -/
def escaped? : Char → Option Char
  | '"' => some '"'
  | '\\' => some '\\'
  | '/' => some '/'
  | 'b' => some '\x08'
  | 'f' => some '\x0c'
  | 'n' => some '\n'
  | 'r' => some '\r'
  | 't' => some '\t'
  | _ => none

/-- Reads one character inside text. -/
def readChar (opening : List Char) (c : Char) (rest : List Char) :
    Except Stop (Parsed (rest.length + 1) Char) :=
  if c = '\\' then
    match rest with
    | [] => .error ⟨.unterminatedText, opening⟩
    | letter :: more =>
      if letter = 'u' then
        (readCoded (letter :: more)).map (·.weaken (Nat.le_succ _))
      else match escaped? letter with
        | some c => .ok ⟨c, more, Nat.lt_succ_of_lt (Nat.lt_succ_self _)⟩
        | none => .error ⟨.unknownEscape, c :: letter :: more⟩
  else if c.toNat < 0x20 then .error ⟨.controlCharacter, c :: rest⟩
  else .ok ⟨c, rest, Nat.lt_succ_self _⟩

/-- Reads text up to its closing mark.  `opening` is the text from the opening mark on, and `done`
holds the characters so far, the last one first. -/
def readText (bound : Nat) (opening done : List Char) (s : List Char) (h : s.length < bound) :
    Except Stop (Parsed bound String) :=
  match s with
  | [] => .error ⟨.unterminatedText, opening⟩
  | c :: rest =>
    if c = '"' then .ok ⟨String.ofList done.reverse, rest, by simp at h; omega⟩
    else match readChar opening c rest with
      | .error stop => .error stop
      | .ok p => readText bound opening (p.result :: done) p.rest (by
          have := p.rest_lt
          simp at h
          omega)
termination_by s.length
decreasing_by exact p.rest_lt

/-! ### Words and numbers -/

/-- A decimal digit of the format. -/
def isDigit (c : Char) : Bool :=
  '0' ≤ c && c ≤ '9'

/-- The number that the digits write. -/
def ofDigits (digits : List Char) : Nat :=
  digits.foldl (fun n c => 10 * n + (c.toNat - '0'.toNat)) 0

/-- The characters of a number, taken apart. -/
structure Numeral where
  negative : Bool
  whole : List Char
  /-- The digits after a point, if there is a point with digits. -/
  fraction? : Option (List Char)
  exponent? : Option Int

/-- The value of a numeral: whole if it has neither a point nor an exponent.  Only then its digits
are counted. -/
def Numeral.value (n : Numeral) : Except Cause Value :=
  match n.fraction?, n.exponent? with
  | none, none =>
    if Text.mostDigits < n.whole.length then .error (.tooManyDigits n.whole.length)
    else .ok (.int (if n.negative then -(ofDigits n.whole : Int) else ofDigits n.whole))
  | fraction?, exponent? =>
    let fraction := fraction?.getD []
    let power := exponent?.getD 0 - (fraction.length : Nat)
    .ok (.float (Binary64.ofDecimal n.negative (ofDigits (n.whole ++ fraction)) power))

/-- Splits off the digits at the start. -/
def spanDigits (s : List Char) : List Char × List Char :=
  (s.takeWhile isDigit, s.dropWhile isDigit)

/-- Splits off the whole part: a zero alone, or digits that start with none. -/
def spanWhole : List Char → List Char × List Char
  | '0' :: rest => (['0'], rest)
  | s => spanDigits s

/-- Splits off a point with at least one digit after it. -/
def spanFraction : List Char → Option (List Char) × List Char
  | '.' :: c :: rest =>
    if isDigit c then (some (spanDigits (c :: rest)).1, (spanDigits (c :: rest)).2)
    else (none, '.' :: c :: rest)
  | s => (none, s)

/-- Splits off an exponent with at least one digit. -/
def spanExponent (s : List Char) : Option Int × List Char :=
  match s with
  | mark :: rest =>
    if mark = 'e' ∨ mark = 'E' then
      let (negative, digits) : Bool × List Char :=
        match rest with
        | '-' :: more => (true, more)
        | '+' :: more => (false, more)
        | more => (false, more)
      let (digits, after) := spanDigits digits
      if digits.isEmpty then (none, s)
      else (some (if negative then -(ofDigits digits : Int) else ofDigits digits), after)
    else (none, s)
  | [] => (none, s)

/-- Splits a number off the start, if one stands there.  It ends where it stops being one. -/
def numeral? (s : List Char) : Option (Numeral × List Char) :=
  let (negative, unsigned) : Bool × List Char :=
    match s with
    | '-' :: rest => (true, rest)
    | rest => (false, rest)
  let (whole, afterWhole) := spanWhole unsigned
  if whole.isEmpty then none
  else
    let (fraction?, afterFraction) := spanFraction afterWhole
    let (exponent?, rest) := spanExponent afterFraction
    some (⟨negative, whole, fraction?, exponent?⟩, rest)

/-- The words that stand for values. -/
def words : List (String × Value) :=
  [("null", .null), ("true", .bool true), ("false", .bool false), ("NaN", .float .nan),
    ("Infinity", .float (.infinite false)), ("-Infinity", .float (.infinite true))]

/-- Splits a word off the start, if one stands there. -/
def word? (s : List Char) : Option (Value × List Char) :=
  words.findSome? fun (word, value) =>
    if word.toList.isPrefixOf s then some (value, s.drop word.length) else none

/-- Reads a word or a number. -/
def readScalar (s : List Char) : Except Stop (Parsed s.length Value) :=
  let found : Option (Except Cause Value × List Char) :=
    match word? s with
    | some (value, rest) => some (.ok value, rest)
    | none => (numeral? s).map fun (n, rest) => (n.value, rest)
  match found with
  | some (.ok value, rest) =>
    if h : rest.length < s.length then .ok ⟨value, rest, h⟩ else .error ⟨.expectedValue, s⟩
  | some (.error cause, _) => .error ⟨cause, s⟩
  | none => .error ⟨.expectedValue, s⟩

/-! ### Lists, objects and values -/

/-- Sets a field: in its place if the key is there, at the end otherwise. -/
def setField (key : String) (value : Value) (fields : List (String × Value)) :
    List (String × Value) :=
  if fields.any (·.1 == key) then
    fields.map fun field => if field.1 == key then (key, value) else field
  else fields ++ [(key, value)]

/-- Reads the key that starts here, and the colon after it.  The characters left are those of the
value. -/
def readKey (s : List Char) : Except Stop (Parsed s.length String) :=
  match s with
  | '"' :: rest => do
    let key ← readText (rest.length + 1) s [] rest (by simp)
    match h : skipGap key.rest with
    | ':' :: more => return ⟨key.result, skipGap more, by
        have h₁ := key.rest_lt
        have h₂ := length_skipGap_le key.rest
        have h₃ := length_skipGap_le more
        simp [h] at h₂ ⊢
        omega⟩
    | more => throw ⟨.expectedColon, more⟩
  | s => .error ⟨.expectedName, s⟩

mutual

/-- Reads the value that starts here. -/
def readValue (s : List Char) : Except Stop (Parsed s.length Value) :=
  match s with
  | [] => .error ⟨.expectedValue, []⟩
  | c :: rest =>
    if c = '"' then
      (readText (rest.length + 1) (c :: rest) [] rest (by simp)).map (·.map .text)
    else if c = '[' then
      match h : skipGap rest with
      | ']' :: more => .ok ⟨.list [], more, by
          have := length_skipGap_le rest
          simp [h] at this
          simp
          omega⟩
      | more => (readItems (rest.length + 1) [] more (by
          have := length_skipGap_le rest
          simp [h] at this
          omega)).map (·.map .list)
    else if c = '\x7b' then
      match h : skipGap rest with
      | '\x7d' :: more => .ok ⟨.object [], more, by
          have := length_skipGap_le rest
          simp [h] at this
          simp
          omega⟩
      | more => (readFields (rest.length + 1) [] more (by
          have := length_skipGap_le rest
          simp [h] at this
          omega)).map (·.map .object)
    else readScalar (c :: rest)
termination_by 2 * s.length
decreasing_by
  all_goals
    have := length_skipGap_le rest
    simp_all
    omega

/-- Reads the members of a list from the next one on, and its closing mark. -/
def readItems (bound : Nat) (done : List Value) (s : List Char) (h : s.length < bound) :
    Except Stop (Parsed bound (List Value)) :=
  match readValue s with
  | .error stop => .error stop
  | .ok item =>
    match hs : skipGap item.rest with
    | ']' :: rest => .ok ⟨(item.result :: done).reverse, rest, by
        have h₁ := item.rest_lt
        have h₂ := length_skipGap_le item.rest
        simp [hs] at h₂
        omega⟩
    | ',' :: rest => readItems bound (item.result :: done) (skipGap rest) (by
        have h₁ := item.rest_lt
        have h₂ := length_skipGap_le item.rest
        have h₃ := length_skipGap_le rest
        simp [hs] at h₂
        omega)
    | rest => .error ⟨.expectedComma, rest⟩
termination_by 2 * s.length + 1
decreasing_by
  · exact Nat.lt_succ_self _
  · have h₁ := item.rest_lt
    have h₂ := length_skipGap_le item.rest
    have h₃ := length_skipGap_le rest
    simp [hs] at h₂
    omega

/-- Reads the fields of an object from the next key on, and its closing mark. -/
def readFields (bound : Nat) (done : List (String × Value)) (s : List Char)
    (h : s.length < bound) : Except Stop (Parsed bound (List (String × Value))) :=
  match readKey s with
  | .error stop => .error stop
  | .ok key =>
    match readValue key.rest with
    | .error stop => .error stop
    | .ok value =>
      match hs : skipGap value.rest with
      | '\x7d' :: rest => .ok ⟨setField key.result value.result done, rest, by
          have h₁ := key.rest_lt
          have h₂ := value.rest_lt
          have h₃ := length_skipGap_le value.rest
          simp [hs] at h₃
          omega⟩
      | ',' :: rest =>
        readFields bound (setField key.result value.result done) (skipGap rest) (by
          have h₁ := key.rest_lt
          have h₂ := value.rest_lt
          have h₃ := length_skipGap_le value.rest
          have h₄ := length_skipGap_le rest
          simp [hs] at h₃
          omega)
      | rest => .error ⟨.expectedComma, rest⟩
termination_by 2 * s.length + 1
decreasing_by
  · have h := key.rest_lt
    omega
  · have h₁ := key.rest_lt
    have h₂ := value.rest_lt
    have h₃ := length_skipGap_le value.rest
    have h₄ := length_skipGap_le rest
    simp [hs] at h₃
    omega

end

/-! ### Whole texts -/

/-- Reads a text that holds one value, with blanks around it. -/
def readWhole (s : List Char) : Except Stop Value := do
  if s.head? = some '\ufeff' then throw ⟨.byteOrderMark, s⟩
  let p ← readValue (skipGap s)
  match skipGap p.rest with
  | [] => return p.result
  | rest => throw ⟨.extraData, rest⟩

/-- The value that a text holds. -/
def read (s : List Char) : Except Fault Value :=
  (readWhole s).mapError fun stop => .after (s.take (s.length - stop.left.length)) stop.cause

end GrammarConflict.Json
