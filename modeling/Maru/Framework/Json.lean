import Maru.Framework.Digits
import Mathlib.Data.String.Basic
import Mathlib.Order.Basic

/-!
# JSON values and their text

The values `json.loads` returns and the two functions between them and text: `dumps`
(sorted keys, no blanks, text not escaped to ASCII) and `loads`. An object is kept as its
members in increasing order of the keys, so equal objects are equal values whatever the
order they were written in, and `dumps` writes the members in their order.

A string is a sequence of Unicode scalar values. A lone surrogate, which only the escape
of one can bring into a document, has no UTF-8 form; `loads` refuses it here.
-/

namespace Maru

/-- A JSON value. A float is kept as the text `repr` gives it. -/
inductive Json where
  | null
  | bool (b : Bool)
  | int (n : Int)
  | float (repr : String)
  | str (s : String)
  | arr (elems : List Json)
  | obj (members : List (String × Json))

namespace Json

open Digits

/-! ## Equality -/

mutual

def decEq : (a b : Json) → Decidable (a = b)
  | .null, .null => isTrue rfl
  | .bool a, .bool b => decidable_of_iff (a = b) (by simp)
  | .int a, .int b => decidable_of_iff (a = b) (by simp)
  | .float a, .float b => decidable_of_iff (a = b) (by simp)
  | .str a, .str b => decidable_of_iff (a = b) (by simp)
  | .arr a, .arr b => @decidable_of_iff _ (a = b) (by simp) (decEqElems a b)
  | .obj a, .obj b => @decidable_of_iff _ (a = b) (by simp) (decEqMembers a b)
  | .null, .bool _ | .null, .int _ | .null, .float _ | .null, .str _ | .null, .arr _ | .null, .obj _
  | .bool _, .null | .bool _, .int _ | .bool _, .float _ | .bool _, .str _ | .bool _, .arr _ | .bool _, .obj _
  | .int _, .null | .int _, .bool _ | .int _, .float _ | .int _, .str _ | .int _, .arr _ | .int _, .obj _
  | .float _, .null | .float _, .bool _ | .float _, .int _ | .float _, .str _ | .float _, .arr _
  | .float _, .obj _
  | .str _, .null | .str _, .bool _ | .str _, .int _ | .str _, .float _ | .str _, .arr _ | .str _, .obj _
  | .arr _, .null | .arr _, .bool _ | .arr _, .int _ | .arr _, .float _ | .arr _, .str _ | .arr _, .obj _
  | .obj _, .null | .obj _, .bool _ | .obj _, .int _ | .obj _, .float _ | .obj _, .str _ | .obj _, .arr _ =>
    isFalse (by simp)

def decEqElems : (a b : List Json) → Decidable (a = b)
  | [], [] => isTrue rfl
  | a :: as, b :: bs =>
    match decEq a b, decEqElems as bs with
    | isTrue h, isTrue h' => isTrue (by rw [h, h'])
    | isFalse h, _ => isFalse fun e => h (List.cons.inj e).1
    | _, isFalse h => isFalse fun e => h (List.cons.inj e).2
  | [], _ :: _ | _ :: _, [] => isFalse (by simp)

def decEqMembers : (a b : List (String × Json)) → Decidable (a = b)
  | [], [] => isTrue rfl
  | (k, a) :: as, (l, b) :: bs =>
    match decEq a b, decEqMembers as bs with
    | isTrue h, isTrue h' => if e : k = l then isTrue (by rw [h, h', e])
        else isFalse fun e' => e (Prod.mk.inj (List.cons.inj e').1).1
    | isFalse h, _ => isFalse fun e => h (Prod.mk.inj (List.cons.inj e).1).2
    | _, isFalse h => isFalse fun e => h (List.cons.inj e).2
  | [], _ :: _ | _ :: _, [] => isFalse (by simp)

end

instance : DecidableEq Json := decEq

/-! ## Objects -/

/-- Add a member to an object, in its place; nothing if the key is there already. -/
def insertMember (k : String) (v : Json) : List (String × Json) → Option (List (String × Json))
  | [] => some [(k, v)]
  | (l, w) :: ms =>
    if k = l then none
    else if k < l then some ((k, v) :: (l, w) :: ms)
    else (insertMember k v ms).map ((l, w) :: ·)

/-- The members in increasing order of the keys; nothing if two have the same key. -/
def sortMembers : List (String × Json) → Option (List (String × Json))
  | [] => some []
  | (k, v) :: ms => (sortMembers ms).bind (insertMember k v)

/-- The value of a member. -/
def get? (k : String) (ms : List (String × Json)) : Option Json := ms.lookup k

/-! ## Writing -/

/-- The escape of a control character: `\u00xx`. -/
def escapeControl (n : Nat) : List Char := '\\' :: 'u' :: padHex 4 n

def escapeChar (c : Char) : List Char :=
  if c = '"' then ['\\', '"']
  else if c = '\\' then ['\\', '\\']
  else if c = '\n' then ['\\', 'n']
  else if c = '\r' then ['\\', 'r']
  else if c = '\t' then ['\\', 't']
  else if c.toNat = 12 then ['\\', 'f']
  else if c.toNat = 8 then ['\\', 'b']
  else if c.toNat < 32 then escapeControl c.toNat
  else [c]

/-- A string literal. -/
def quote (s : String) : List Char := '"' :: (s.toList.flatMap escapeChar ++ ['"'])

def intChars (n : Int) : List Char :=
  if n < 0 then '-' :: decimal n.natAbs else decimal n.natAbs

mutual

def chars : Json → List Char
  | .null => "null".toList
  | .bool true => "true".toList
  | .bool false => "false".toList
  | .int n => intChars n
  | .float r => r.toList
  | .str s => quote s
  | .arr [] => ['[', ']']
  | .arr (v :: vs) => '[' :: (chars v ++ elemsChars vs)
  | .obj [] => ['{', '}']
  | .obj ((k, v) :: ms) => '{' :: (quote k ++ ':' :: (chars v ++ membersChars ms))

/-- The elements after the first, and the closing bracket. -/
def elemsChars : List Json → List Char
  | [] => [']']
  | v :: vs => ',' :: (chars v ++ elemsChars vs)

/-- The members after the first, and the closing brace. -/
def membersChars : List (String × Json) → List Char
  | [] => ['}']
  | (k, v) :: ms => ',' :: (quote k ++ ':' :: (chars v ++ membersChars ms))

end

/-- `json.dumps(v, sort_keys=True, separators=(",", ":"), ensure_ascii=False)`. -/
def dumps (v : Json) : String := String.ofList v.chars

/-! ## Reading -/

def isBlank (c : Char) : Bool := c = ' ' ∨ c = '\t' ∨ c = '\n' ∨ c = '\r'

def skipBlanks (cs : List Char) : List Char := cs.dropWhile isBlank

def escapeVal? (c : Char) : Option Nat :=
  if c = '"' then some 34
  else if c = '\\' then some 92
  else if c = '/' then some 47
  else if c = 'b' then some 8
  else if c = 'f' then some 12
  else if c = 'n' then some 10
  else if c = 'r' then some 13
  else if c = 't' then some 9
  else none

/-- The code points of a string literal after its opening quote, and what follows it. -/
def readPoints : List Char → Option (List Nat × List Char)
  | [] => none
  | c :: cs =>
    if c = '"' then some ([], cs)
    else if c = '\\' then
      match cs with
      | 'u' :: a :: b :: c :: d :: cs => do
        let (n, _) ← readHex 4 0 [a, b, c, d]
        let (ns, rest) ← readPoints cs
        return (n :: ns, rest)
      | e :: cs => do
        let n ← escapeVal? e
        let (ns, rest) ← readPoints cs
        return (n :: ns, rest)
      | [] => none
    else if c.toNat < 32 then none
    else do
      let (ns, rest) ← readPoints cs
      return (c.toNat :: ns, rest)

/-- The characters of code points: a high and a low surrogate in a row are one character,
and a surrogate alone is none. -/
def charsOfPoints : List Nat → Option (List Char)
  | [] => some []
  | n :: ns =>
    if h : n.isValidChar then (charsOfPoints ns).map (Char.ofNatAux n h :: ·)
    else
      match ns with
      | m :: ns =>
        let p := 0x10000 + (n - 0xD800) * 0x400 + (m - 0xDC00)
        if h : (0xD800 ≤ n ∧ n ≤ 0xDBFF ∧ 0xDC00 ≤ m ∧ m ≤ 0xDFFF) ∧ p.isValidChar then
          (charsOfPoints ns).map (Char.ofNatAux p h.2 :: ·)
        else none
      | [] => none

/-- A string after its opening quote. -/
def readString (cs : List Char) : Option (String × List Char) := do
  let (ns, rest) ← readPoints cs
  let s ← charsOfPoints ns
  return (String.ofList s, rest)

/-- A fraction and an exponent after an integer, as they are written. -/
def readFraction (cs : List Char) : List Char × List Char :=
  match cs with
  | '.' :: c :: cs => if (digitVal? c).isSome then
      ('.' :: c :: cs.takeWhile (digitVal? · |>.isSome), cs.dropWhile (digitVal? · |>.isSome)) else ([], '.' :: c :: cs)
  | cs => ([], cs)

def readExponent (cs : List Char) : List Char × List Char :=
  let digits (e : List Char) (cs : List Char) : Option (List Char × List Char) :=
    match cs with
    | c :: rest => if (digitVal? c).isSome then
        some (e ++ c :: rest.takeWhile (digitVal? · |>.isSome), rest.dropWhile (digitVal? · |>.isSome)) else none
    | [] => none
  match cs with
  | e :: s :: rest =>
    if e = 'e' ∨ e = 'E' then
      ((if s = '+' ∨ s = '-' then digits [e, s] rest else digits [e] (s :: rest)).getD ([], cs))
    else ([], cs)
  | _ => ([], cs)

/-- The longest integer text `int()` converts. -/
def maxIntDigits : Nat := 4300

/-- The digits of an integer without its sign: `0`, or a digit other than 0 and more digits. -/
def readNatural (cs : List Char) : Option (Nat × List Char) :=
  match cs with
  | [] => none
  | c :: cs =>
    match digitVal? c with
    | none => none
    | some 0 => some (0, cs)
    | some d =>
      let (n, rest) := readDecimal d cs
      if cs.length + 1 - rest.length ≤ maxIntDigits then some (n, rest) else none

section

-- What `repr(float(text))` is.
variable (floatRepr : String → String)

/-- A number after its sign. -/
def readNumber (negative : Bool) (cs : List Char) : Option (Json × List Char) := do
  let (n, rest) ← readNatural cs
  let (fraction, rest') := readFraction rest
  let (exponent, rest') := readExponent rest'
  if fraction = [] ∧ exponent = [] then
    return (.int (if negative then -n else n), rest)
  else
    let digits := (if negative then ['-'] else []) ++ cs.take (cs.length - rest.length)
    return (.float (floatRepr (String.ofList (digits ++ fraction ++ exponent))), rest')

/-- Read the characters `word`. -/
def readWord (word : List Char) (v : Json) (cs : List Char) : Option (Json × List Char) :=
  if word.isPrefixOf cs then some (v, cs.drop word.length) else none

mutual

/-- A value; `fuel` bounds the calls one below another. -/
def readValue (fuel : Nat) (cs : List Char) : Option (Json × List Char) :=
  match fuel with
  | 0 => none
  | fuel + 1 =>
    match cs with
    | [] => none
    | '"' :: cs => do
      let (s, rest) ← readString cs
      return (.str s, rest)
    | '[' :: cs =>
      match skipBlanks cs with
      | ']' :: rest => some (.arr [], rest)
      | cs => do
        let (v, rest) ← readValue fuel cs
        let (vs, rest) ← readElems fuel (skipBlanks rest)
        return (.arr (v :: vs), rest)
    | '{' :: cs =>
      match skipBlanks cs with
      | '}' :: rest => some (.obj [], rest)
      | cs => do
        let (m, rest) ← readMember fuel cs
        let (ms, rest) ← readMembers fuel (skipBlanks rest)
        let sorted ← sortMembers (m :: ms)
        return (.obj sorted, rest)
    | 'n' :: cs => readWord "ull".toList .null cs
    | 't' :: cs => readWord "rue".toList (.bool true) cs
    | 'f' :: cs => readWord "alse".toList (.bool false) cs
    | 'N' :: cs => readWord "aN".toList (.float "nan") cs
    | 'I' :: cs => readWord "nfinity".toList (.float "inf") cs
    | '-' :: 'I' :: cs => readWord "nfinity".toList (.float "-inf") cs
    | '-' :: cs => readNumber floatRepr true cs
    | c :: cs => readNumber floatRepr false (c :: cs)

/-- The elements after the first, up to the closing bracket. -/
def readElems (fuel : Nat) (cs : List Char) : Option (List Json × List Char) :=
  match fuel with
  | 0 => none
  | fuel + 1 =>
    match cs with
    | ']' :: rest => some ([], rest)
    | ',' :: cs => do
      let (v, rest) ← readValue fuel (skipBlanks cs)
      let (vs, rest) ← readElems fuel (skipBlanks rest)
      return (v :: vs, rest)
    | _ => none

/-- A key and its value. -/
def readMember (fuel : Nat) (cs : List Char) : Option ((String × Json) × List Char) :=
  match fuel with
  | 0 => none
  | fuel + 1 =>
    match cs with
    | '"' :: cs => do
      let (k, rest) ← readString cs
      match skipBlanks rest with
      | ':' :: rest => do
        let (v, rest) ← readValue fuel (skipBlanks rest)
        return ((k, v), rest)
      | _ => none
    | _ => none

/-- The members after the first, up to the closing brace. -/
def readMembers (fuel : Nat) (cs : List Char) : Option (List (String × Json) × List Char) :=
  match fuel with
  | 0 => none
  | fuel + 1 =>
    match cs with
    | '}' :: rest => some ([], rest)
    | ',' :: cs => do
      let (m, rest) ← readMember fuel (skipBlanks cs)
      let (ms, rest) ← readMembers fuel (skipBlanks rest)
      return (m :: ms, rest)
    | _ => none

end

/-- `json.loads`, refusing an object with a key twice. Each call of a reader on the same
text is followed by one on a shorter text, so twice its length is fuel enough. -/
def loads (text : String) : Option Json := do
  let cs := skipBlanks text.toList
  let (v, rest) ← readValue floatRepr (2 * cs.length + 2) cs
  if skipBlanks rest = [] then return v else none

end

end Json

end Maru
