/-
# Reading a document

Keys, arrays, tables in one line, and the lines of a document.  Values nest to a fixed depth.
-/
import RemoteCall.Toml.Scalar

namespace RemoteCall.Toml

open Reading

/-- The depth to which arrays and tables in one line nest, and the number of parts of a key. -/
def maxDepth : Nat := 79

/-- Whether a character may stand in a key without quotes. -/
def isBare (c : Char) : Bool :=
  ('A' ≤ c && c ≤ 'Z') || ('a' ≤ c && c ≤ 'z') || ('0' ≤ c && c ≤ '9') || c == '_' || c == '-'

/-- Takes one part of a key. -/
def keyPart : Reading String :=
  basic <|> literal <|> (do let cs ← span1 isBare; pure (String.ofList cs))

/-- Takes a key with the spaces around it: the parts in front of the last point, and the last
part. -/
def key : Reading (List String × String) := do
  spaces
  let first ← keyPart
  let rest ← many do
    spaces
    exactly ['.']
    spaces
    keyPart
  spaces
  let parts := first :: rest
  if maxDepth < parts.length then failure
  pure (parts.dropLast, parts.getLast (by simp [parts]))

/-- Takes an array, given how its values are taken. -/
def array (value : Reading Item) : Reading Item := do
  exactly ['[']
  gap
  let items ← optional do
    let first ← value
    let rest ← many do
      gap
      exactly [',']
      gap
      value
    gap
    let _ ← optional (exactly [','])
    pure (first :: rest)
  gap
  exactly [']']
  pure (.array (items.getD []))

/-- Takes a key, an equals sign and a value, given how the value is taken. -/
def keyed (value : Reading Item) : Reading (List String × String × Item) := do
  let (path, last) ← key
  exactly ['=']
  spaces
  let item ← value
  pure (path, last, item)

/-- Takes a table in one line, given how its values are taken. -/
def inlined (value : Reading Item) : Reading Item := do
  exactly ['\x7b']
  let items ← optional do
    let first ← keyed value
    let rest ← many do
      spaces
      exactly [',']
      keyed value
    pure (first :: rest)
  spaces
  exactly ['\x7d']
  let entries ← ofOption (inlineEntries (items.getD []))
  pure (.inlined entries)

/-- Takes a value, when arrays and tables in one line may nest `levels` deep. -/
def value : Nat → Reading Item
  | 0 => scalar
  | levels + 1 => array (value levels) <|> inlined (value levels) <|> scalar

/-- Takes a header. -/
def header : Reading Statement :=
  (do
    exactly ['[', '[']
    let (path, last) ← key
    exactly [']', ']']
    pure (.element path last)) <|>
  (do
    notBefore ['[', '[']
    exactly ['[']
    let (path, last) ← key
    exactly [']']
    pure (.header path last))

/-- Takes a line that says something. -/
def statement : Reading Statement :=
  header <|> do
    let (path, last, item) ← keyed (value maxDepth)
    pure (.item path last item)

/-- Takes a line without its end; a line may say nothing. -/
def line : Reading (Option Statement) := do
  spaces
  let s ← optional statement
  spaces
  let _ ← optional comment
  pure s

/-- Takes a document, a mark of its byte order in front of it or not. -/
def statements : Reading (List Statement) := do
  let _ ← optional (exactly ['\ufeff'])
  let first ← line
  let rest ← many do
    newline
    line
  ending
  pure ((first :: rest).filterMap id)

/-- The entries of a document; nothing if the text is none. -/
def parse? (s : String) : Option Entries := do
  let l ← whole? statements s.toList
  build l [] []

end RemoteCall.Toml
