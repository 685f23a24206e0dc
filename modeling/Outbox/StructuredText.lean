-- The text of a structured value. One tree has two layouts: all on one
-- line, or one line for each field and element with four spaces of indent a
-- level and a comma behind each.

namespace Outbox

inductive StructuredText where
  | word (text : String)
  | quoted (text : String)
  | list (items : List StructuredText)
  | applied (name : String) (arguments : List StructuredText)
  /-- A name with fields between braces. With `more` set, two dots behind
  the last field tell that not all fields are shown. -/
  | record (name : String) (fields : List (String × StructuredText)) (more : Bool)

namespace StructuredText

/-- A number, or nothing, as `Some(5)` or `None`. -/
def count? : Option Nat → StructuredText
  | some n => .applied "Some" [.word (toString n)]
  | none => .word "None"

def flag (b : Bool) : StructuredText := .word (if b then "true" else "false")

/-! ## Quoted text -/

/-- A control character has no escape of its own: its code stands in lower
case hex, without padding. -/
def escapedCode (c : Char) : List Char :=
  ['\\', 'u', '\x7b'] ++ Nat.toDigits 16 c.toNat ++ ['\x7d']

/-- Quotes and backslashes take a backslash, and so do line feed, carriage
return, tab and null under their letters. -/
def escapedChar (c : Char) : List Char :=
  if c = '"' then ['\\', '"']
  else if c = '\\' then ['\\', '\\']
  else if c = '\n' then ['\\', 'n']
  else if c = '\r' then ['\\', 'r']
  else if c = '\t' then ['\\', 't']
  else if c = '\x00' then ['\\', '0']
  else if c.toNat < 0x20 ∨ c.toNat = 0x7f then escapedCode c
  else [c]

def escaped (s : String) : String := String.ofList (s.toList.flatMap escapedChar)

def quote (s : String) : String := "\"" ++ escaped s ++ "\""

/-! ## One line -/

mutual

/-- All on one line. -/
def inline : StructuredText → String
  | .word text => text
  | .quoted text => quote text
  | .list items => "[" ++ ", ".intercalate (inlineItems items) ++ "]"
  | .applied name [] => name
  | .applied name (a :: rest) => name ++ "(" ++ ", ".intercalate (inlineItems (a :: rest)) ++ ")"
  | .record name [] false => name
  | .record name [] true => name ++ " \x7b .. \x7d"
  | .record name (f :: rest) more =>
    name ++ " \x7b " ++ ", ".intercalate (inlineFields (f :: rest) ++ if more then [".."] else [])
      ++ " \x7d"

def inlineItems : List StructuredText → List String
  | [] => []
  | t :: rest => inline t :: inlineItems rest

def inlineFields : List (String × StructuredText) → List String
  | [] => []
  | (name, t) :: rest => (name ++ ": " ++ inline t) :: inlineFields rest

end

/-! ## One line for each part -/

mutual

/-- One line for each part. `margin` stands before every line but the first. -/
def blockWithin (margin : String) : StructuredText → String
  | .word text => text
  | .quoted text => quote text
  | .list [] => "[]"
  | .list (t :: rest) => "[\n" ++ itemLines (margin ++ "    ") (t :: rest) ++ margin ++ "]"
  | .applied name [] => name
  | .applied name (a :: rest) =>
    name ++ "(\n" ++ itemLines (margin ++ "    ") (a :: rest) ++ margin ++ ")"
  | .record name [] false => name
  | .record name [] true => name ++ " \x7b .. \x7d"
  | .record name (f :: rest) more =>
    name ++ " \x7b\n" ++ fieldLines (margin ++ "    ") (f :: rest)
      ++ (if more then margin ++ "    ..\n" else "") ++ margin ++ "\x7d"

def itemLines (margin : String) : List StructuredText → String
  | [] => ""
  | t :: rest => margin ++ blockWithin margin t ++ ",\n" ++ itemLines margin rest

def fieldLines (margin : String) : List (String × StructuredText) → String
  | [] => ""
  | (name, t) :: rest =>
    margin ++ name ++ ": " ++ blockWithin margin t ++ ",\n" ++ fieldLines margin rest

end

def block (t : StructuredText) : String := blockWithin "" t

def render (t : StructuredText) (pretty : Bool) : String :=
  if pretty then t.block else t.inline

end StructuredText

end Outbox
