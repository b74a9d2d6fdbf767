import PETriage.Json.Value
import PETriage.Number.Shortest
import PETriage.Number.Written
import PETriage.Text.Printable

/-!
# Values shown in a report

A text stands for itself; any other value is spelled out, with texts inside it quoted.
The quote is the single one unless only that occurs in the text; characters that do not
print are escaped by their code point.
-/
namespace PETriage.Display

def padHex (width n : Nat) : List Char := (Nat.toDigits 16 n).leftpad width '0'

def escapeChar (quote c : Char) : List Char :=
  if c == quote || c == '\\' then ['\\', c]
  else if c == '\n' then ['\\', 'n']
  else if c == '\r' then ['\\', 'r']
  else if c == '\t' then ['\\', 't']
  else if Text.isPrintable c then [c]
  else if c.toNat < 256 then '\\' :: 'x' :: padHex 2 c.toNat
  else if c.toNat < 65536 then '\\' :: 'u' :: padHex 4 c.toNat
  else '\\' :: 'U' :: padHex 8 c.toNat

def escapePiece (quote : Char) (s : String) : List Char := s.toList.flatMap (escapeChar quote)

def quoteFor (cs : List Char) : Char :=
  if cs.contains '\x27' && !cs.contains '"' then '"' else '\x27'

def quoted (t : Text) : String :=
  let quote := quoteFor (t.pieces.flatMap String.toList)
  String.ofList (quote :: (escapePiece quote t.head ++
    t.tail.flatMap (fun (h, s) => '\\' :: 'u' :: padHex 4 h.unit ++ escapePiece quote s) ++
    [quote]))

def commas (texts : List String) : String := ", ".intercalate texts

mutual
def spelled : Value → Except Number.WrittenError String
  | .null => .ok "None"
  | .bool true => .ok "True"
  | .bool false => .ok "False"
  | .int n => Number.decimal? n
  | .float x => .ok (Number.shortest x)
  | .str s => .ok (quoted s)
  | .list items => do
    let texts ← spelledItems items
    return "[" ++ commas texts ++ "]"
  | .object fields => do
    let texts ← spelledFields fields
    return "\x7b" ++ commas texts ++ "\x7d"
def spelledItems : List Value → Except Number.WrittenError (List String)
  | [] => .ok []
  | v :: rest => do
    let text ← spelled v
    let texts ← spelledItems rest
    return text :: texts
def spelledFields : List (Text × Value) → Except Number.WrittenError (List String)
  | [] => .ok []
  | (k, v) :: rest => do
    let text ← spelled v
    let texts ← spelledFields rest
    return (quoted k ++ ": " ++ text) :: texts
end

def shown : Value → Except Number.WrittenError Text
  | .str t => .ok t
  | v => (spelled v).map Text.ofString

end PETriage.Display
