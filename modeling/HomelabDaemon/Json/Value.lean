import Mathlib.Data.List.Basic
import Mathlib.Data.Char

/-!
# JSON values and their indented text

Numbers stay text. Strings are escaped as an HTML-safe encoder escapes them.
-/

namespace Json

inductive Value where
  | null
  | bool (b : Bool)
  | number (text : List Char)
  | string (s : String)
  | array (items : List Value)
  | object (members : List (String × Value))

/-- The part of a number that has been read. -/
inductive Numeral where
  | negative | zero | digits | point | fraction | exponent | sign | power
  deriving DecidableEq

namespace Numeral

def first (c : Char) : Option Numeral :=
  if c = '-' then some .negative
  else if c = '0' then some .zero
  else if c.isDigit then some .digits
  else none

def next (n : Numeral) (c : Char) : Option Numeral :=
  match n with
  | .negative => if c = '0' then some .zero else if c.isDigit then some .digits else none
  | .zero | .digits =>
    if n = .digits ∧ c.isDigit then some .digits
    else if c = '.' then some .point
    else if c = 'e' ∨ c = 'E' then some .exponent
    else none
  | .point => if c.isDigit then some .fraction else none
  | .fraction => if c.isDigit then some .fraction else if c = 'e' ∨ c = 'E' then some .exponent else none
  | .exponent => if c = '+' ∨ c = '-' then some .sign else if c.isDigit then some .power else none
  | .sign | .power => if c.isDigit then some .power else none

def isFinal : Numeral → Bool
  | .zero | .digits | .fraction | .power => true
  | _ => false

/-- Whether the text, read on from `n`, ends a number. -/
def accepts (n : Numeral) (text : List Char) : Bool := (text.foldlM next n).any isFinal

end Numeral

def isNumber : List Char → Bool
  | [] => false
  | c :: text => (Numeral.first c).any fun n => n.accepts text

def hexDigit (n : Nat) : Char := if n < 10 then Char.ofNat (48 + n) else Char.ofNat (87 + n)

def unicode (n : Nat) : List Char :=
  ['\\', 'u', hexDigit (n / 4096 % 16), hexDigit (n / 256 % 16), hexDigit (n / 16 % 16), hexDigit (n % 16)]

/-- A control character that has a letter of its own. -/
def shortEscape (c : Char) : Option Char :=
  if c = '\x08' then some 'b'
  else if c = '\x0c' then some 'f'
  else if c = '\n' then some 'n'
  else if c = '\r' then some 'r'
  else if c = '\t' then some 't'
  else none

def escape (c : Char) : List Char :=
  if c = '"' ∨ c = '\\' then ['\\', c]
  else match shortEscape c with
    | some letter => ['\\', letter]
    | none =>
      if c.toNat < 32 ∨ c = '<' ∨ c = '>' ∨ c = '&' ∨ c.toNat = 0x2028 ∨ c.toNat = 0x2029 then unicode c.toNat
      else [c]

def quote (s : String) : List Char := '"' :: s.toList.flatMap escape ++ ['"']

def newline (depth : Nat) : List Char := '\n' :: List.replicate (2 * depth) ' '

mutual

/-- The text of a value, two blanks for each level. -/
def indent (depth : Nat) : Value → List Char
  | .null => "null".toList
  | .bool b => if b then "true".toList else "false".toList
  | .number text => text
  | .string s => quote s
  | .array [] => ['[', ']']
  | .array (v :: items) =>
    '[' :: newline (depth + 1) ++ indent (depth + 1) v ++ indentItems (depth + 1) items ++ newline depth ++ [']']
  | .object [] => ['{', '}']
  | .object ((key, v) :: members) =>
    '{' :: newline (depth + 1) ++ quote key ++ [':', ' '] ++ indent (depth + 1) v ++ indentMembers (depth + 1) members
      ++ newline depth ++ ['}']

def indentItems (depth : Nat) : List Value → List Char
  | [] => []
  | v :: items => ',' :: newline depth ++ indent depth v ++ indentItems depth items

def indentMembers (depth : Nat) : List (String × Value) → List Char
  | [] => []
  | (key, v) :: members =>
    ',' :: newline depth ++ quote key ++ [':', ' '] ++ indent depth v ++ indentMembers depth members

end

def marshalIndent (v : Value) : List Char := indent 0 v

end Json
