import CodeChallenges.Json
import CodeChallenges.Text.Utf8
/-!
Reading JSON text, one character at a time.  A `Mode` is what has been read of the token at hand,
and a `State` is what the tokens before it have come to, with the arrays and objects that are still
open.  Blanks may stand between tokens.  Within a string every character stands for itself but the
quote, the backslash and the control characters; a character may also be given by its number, and
one beyond the first plane by a pair of surrogates.  Numbers are integers without leading zeros: a
fraction or an exponent is refused.
-/

namespace CodeChallenges.Json

/-! ## Tokens -/

/-- What stands between blanks: the marks, the strings, and the values that are single words. -/
inductive Token where
  | openArray
  | closeArray
  | openObject
  | closeObject
  | comma
  | colon
  | text (s : String)
  | word (value : Json)

/-- The token that is one character. -/
def mark? (c : Char) : Option Token :=
  if c == '[' then some .openArray
  else if c == ']' then some .closeArray
  else if c == Char.ofNat 0x7b then some .openObject
  else if c == Char.ofNat 0x7d then some .closeObject
  else if c == ',' then some .comma
  else if c == ':' then some .colon
  else none

def isBlank (c : Char) : Bool :=
  c == ' ' || c == '\t' || c == '\n' || c == '\r'

/-- The characters that end a word. -/
def isDelimiter (c : Char) : Bool :=
  isBlank c || c == '"' || (mark? c).isSome

/-- Reads a number without a sign: its first digit is zero only if there is no other. -/
def natural? (cs : List Char) : Option Nat :=
  if cs != [] && cs.all Char.isDigit && (cs == ['0'] || cs.head? != some '0') then
    some (Nat.ofDigitChars 10 cs 0)
  else none

/-- Reads an integer. -/
def integer? : List Char → Option Int
  | '-' :: cs => (natural? cs).map fun n => -(n : Int)
  | cs => (natural? cs).map fun n => (n : Int)

/-- Reads a value that is a single word. -/
def word? (cs : List Char) : Option Json :=
  if cs == "null".toList then some .null
  else if cs == "true".toList then some (.bool true)
  else if cs == "false".toList then some (.bool false)
  else (integer? cs).map .int

/-- The value of a hexadecimal digit of either case. -/
def hexValue? (c : Char) : Option Nat :=
  if '0' ≤ c && c ≤ '9' then some (c.toNat - 0x30)
  else if 'a' ≤ c && c ≤ 'f' then some (c.toNat - 0x57)
  else if 'A' ≤ c && c ≤ 'F' then some (c.toNat - 0x37)
  else none

/-- The character that is named by one character after a backslash. -/
def escaped? (c : Char) : Option Char :=
  if c == '"' || c == '\\' || c == '/' then some c
  else if c == 'b' then some (Char.ofNat 0x08)
  else if c == 'f' then some (Char.ofNat 0x0c)
  else if c == 'n' then some '\n'
  else if c == 'r' then some '\r'
  else if c == 't' then some '\t'
  else none

/-! ## From characters to tokens -/

/-- Where the reader stands in a token.  What has been read of it is kept in reverse; within a
string, `high` is the first surrogate of a pair that waits for its second. -/
inductive Mode where
  | between
  | word (done : List Char)
  | string (done : List Char) (high : Option Nat)
  | escape (done : List Char) (high : Option Nat)
  | code (done : List Char) (high : Option Nat) (need number : Nat)

/-- Takes the first character of a token, or a blank before it. -/
def start (c : Char) : Mode × List Token :=
  if isBlank c then (.between, [])
  else if c == '"' then (.string [] none, [])
  else
    match mark? c with
    | some token => (.between, [token])
    | none => (.word [c], [])

def isHighSurrogate (n : Nat) : Bool :=
  0xd800 ≤ n && n < 0xdc00

def isLowSurrogate (n : Nat) : Bool :=
  0xdc00 ≤ n && n < 0xe000

/-- Takes the number of a character within a string: surrogates come in pairs, and a pair is one
character. -/
def addNumber (done : List Char) (high : Option Nat) (n : Nat) : Option Mode :=
  match high with
  | none =>
    if isHighSurrogate n then some (.string done (some n))
    else if isLowSurrogate n then none
    else some (.string (Char.ofNat n :: done) none)
  | some h =>
    if isLowSurrogate n then
      some (.string (Char.ofNat (0x10000 + (h - 0xd800) * 0x400 + (n - 0xdc00)) :: done) none)
    else none

/-- Takes one character: the mode after it, and the tokens that it ends. -/
def scan (mode : Mode) (c : Char) : Option (Mode × List Token) :=
  match mode with
  | .between => some (start c)
  | .word done =>
    if isDelimiter c then do
      let value ← word? done.reverse
      return ((start c).1, .word value :: (start c).2)
    else some (.word (c :: done), [])
  | .string done none =>
    if c == '"' then some (.between, [.text (String.ofList done.reverse)])
    else if c == '\\' then some (.escape done none, [])
    else if c.toNat < 0x20 then none
    else some (.string (c :: done) none, [])
  | .string done (some high) =>
    if c == '\\' then some (.escape done (some high), []) else none
  | .escape done high =>
    if c == 'u' then some (.code done high 4 0, [])
    else if high.isSome then none
    else (escaped? c).map fun e => (.string (e :: done) none, [])
  | .code done high need number => do
    let n := number * 16 + (← hexValue? c)
    if need ≤ 1 then return (← addNumber done high n, [])
    else return (.code done high (need - 1) n, [])

/-- The tokens that the end of the text ends. -/
def finish : Mode → Option (List Token)
  | .between => some []
  | .word done => (word? done.reverse).map fun value => [.word value]
  | _ => none

/-! ## From tokens to values -/

/-- An array or an object of which a part has been read, in reverse; in an object, the value of
`key` is at hand. -/
inductive Frame where
  | items (done : List Json)
  | fields (done : List (String × Json)) (key : String)

/-- What has been read, with the arrays and objects around it from the inside outwards: a value is
due, a key is due, a key has been read, or a value has been read. -/
inductive State where
  | beforeValue (around : List Frame)
  | beforeKey (done : List (String × Json)) (around : List Frame)
  | beforeColon (done : List (String × Json)) (key : String) (around : List Frame)
  | afterValue (value : Json) (around : List Frame)

/-- Takes one token.  Only an array or an object that has just been opened may be closed where a
value or a key is due. -/
def State.step : State → Token → Option State
  | .beforeValue around, .word v => some (.afterValue v around)
  | .beforeValue around, .text s => some (.afterValue (.str s) around)
  | .beforeValue around, .openArray => some (.beforeValue (.items [] :: around))
  | .beforeValue around, .openObject => some (.beforeKey [] around)
  | .beforeValue (.items [] :: around), .closeArray => some (.afterValue (.arr []) around)
  | .beforeKey done around, .text s => some (.beforeColon done s around)
  | .beforeKey [] around, .closeObject => some (.afterValue (.obj []) around)
  | .beforeColon done key around, .colon => some (.beforeValue (.fields done key :: around))
  | .afterValue v (.items done :: around), .comma =>
    some (.beforeValue (.items (v :: done) :: around))
  | .afterValue v (.items done :: around), .closeArray =>
    some (.afterValue (.arr (v :: done).reverse) around)
  | .afterValue v (.fields done key :: around), .comma =>
    some (.beforeKey ((key, v) :: done) around)
  | .afterValue v (.fields done key :: around), .closeObject =>
    some (.afterValue (.obj ((key, v) :: done).reverse) around)
  | _, _ => none

/-- The value that has been read if nothing is open. -/
def State.result? : State → Option Json
  | .afterValue v [] => some v
  | _ => none

/-! ## Whole texts -/

/-- Reads on from a mode and a state. -/
def readFrom (mode : Mode) (state : State) : List Char → Option Json
  | [] => do (← (← finish mode).foldlM State.step state).result?
  | c :: cs => do
    let (next, tokens) ← scan mode c
    readFrom next (← tokens.foldlM State.step state) cs

/-- Reads a text that is one JSON value with blanks around it. -/
def ofChars? (cs : List Char) : Option Json :=
  readFrom .between (.beforeValue []) cs

/-- Reads the JSON value that bytes write in UTF-8. -/
def ofBytes? (bytes : List UInt8) : Option Json :=
  match Text.Utf8.decode bytes with
  | .ok cs => ofChars? cs
  | .error _ => none

end CodeChallenges.Json
