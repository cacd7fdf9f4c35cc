import Mathlib

/-! # JSON values

A value that a JSON text denotes. A property of an object is found under its name; other values have no
properties. A number that is too large for a float is read as an infinite one. Half of a surrogate pair, which a
JSON text can escape and which is no character, is read as the character zero: a database takes neither. -/

/-- The floats that are no numbers. -/
inductive NonFinite where
  | infinity
  | negInfinity
  | nan
deriving DecidableEq

inductive Json where
  | null
  | bool (b : Bool)
  | number (n : Rat)
  | nonFinite (n : NonFinite)
  | string (s : String)
  | array (items : List Json)
  | object (fields : List (String × Json))

namespace Json

def field? (name : String) : Json → Option Json
  | .object fields => (fields.find? fun f => f.1 = name).map (·.2)
  | _ => none

def isString (s : String) : Json → Bool
  | .string t => decide (t = s)
  | _ => false

/-- A value other than null, false, zero and what is empty. -/
def truthy : Json → Bool
  | .null => false
  | .bool b => b
  | .number n => decide (n ≠ 0)
  | .nonFinite _ => true
  | .string s => decide (s ≠ "")
  | .array items => !items.isEmpty
  | .object fields => !fields.isEmpty

/-! ### What can be written as a text without the character zero -/

def hasNul (s : String) : Bool := s.toList.any fun c => c = '\x00'

mutual

/-- All numbers in it are finite, and no text in it, be it a name or a value, has the character zero. -/
def plain : Json → Bool
  | .null | .bool _ | .number _ => true
  | .nonFinite _ => false
  | .string s => !hasNul s
  | .array items => plainItems items
  | .object fields => plainFields fields

def plainItems : List Json → Bool
  | [] => true
  | item :: items => item.plain && plainItems items

def plainFields : List (String × Json) → Bool
  | [] => true
  | field :: fields => plainField field && plainFields fields

def plainField : String × Json → Bool
  | (name, value) => !hasNul name && value.plain

end

end Json
