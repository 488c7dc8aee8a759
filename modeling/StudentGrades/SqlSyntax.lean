import StudentGrades.ByteText
import StudentGrades.Transducer

/-!
# The text of a select statement

A lexer and a parser for the fragment of SQL with one optional left join, one
equality filter, `CASE WHEN .. THEN .. END`, the aggregate `MAX`, `GROUP BY` and
`ORDER BY`. Keywords and bare identifiers are case-insensitive; a doubled quote
inside a string literal stands for one quote. A text outside the fragment has
no parse.
-/

namespace Sql
open ByteText

inductive Token
  | word (w : Bytes)
  | name (w : Bytes)
  | string (b : Bytes)
  | param (n : ℕ)
  | symbol (b : UInt8)
deriving DecidableEq

inductive Scan
  | blank
  | word (acc : Bytes)
  | name (acc : Bytes)
  | string (acc : Bytes)
  | quoteSeen (acc : Bytes)
  | param (n : ℕ)

def isWordByte (b : UInt8) : Bool :=
  isDigit b || (97 ≤ b && b ≤ 122) || (65 ≤ b && b ≤ 90) || b == 95

def lower (b : UInt8) : UInt8 := if 65 ≤ b ∧ b ≤ 90 then b + 32 else b

def quote : UInt8 := 39

def Scan.start (b : UInt8) : Scan × List Token :=
  if isWordByte b then (.word [lower b], [])
  else if isSpace b then (.blank, [])
  else if b = quote then (.string [], [])
  else if b = 34 then (.name [], [])
  else if b = 36 then (.param 0, [])
  else (.blank, [.symbol b])

def Scan.step : Scan → UInt8 → Scan × List Token
  | .blank, b => start b
  | .word acc, b =>
    if isWordByte b then (.word (lower b :: acc), [])
    else ((start b).1, .word acc.reverse :: (start b).2)
  | .name acc, b => if b = 34 then (.blank, [.name acc.reverse]) else (.name (b :: acc), [])
  | .string acc, b => if b = quote then (.quoteSeen acc, []) else (.string (b :: acc), [])
  | .quoteSeen acc, b =>
    if b = quote then (.string (quote :: acc), [])
    else ((start b).1, .string acc.reverse :: (start b).2)
  | .param n, b =>
    if isDigit b then (.param (10*n + (b.toNat - 48)), [])
    else ((start b).1, .param n :: (start b).2)

/-- The blank after the text closes the last token. -/
def tokens (sql : Bytes) : List Token := (Transducer.run Scan.step .blank (sql ++ [32])).2

structure Column where
  table : Bytes
  column : Bytes
deriving DecidableEq

inductive Operand
  | column (c : Column)
  | literal (b : Bytes)
  | param (n : ℕ)
deriving DecidableEq

structure Equality where
  left : Operand
  right : Operand
deriving DecidableEq

inductive Scalar
  | operand (o : Operand)
  | caseWhen (c : Equality) (o : Operand)
deriving DecidableEq

inductive Item
  | scalar (e : Scalar)
  | max (e : Scalar)
deriving DecidableEq

structure Source where
  table : Bytes
  label : Bytes
deriving DecidableEq

structure Select where
  distinct : Bool
  items : List Item
  source : Source
  leftJoin : Option (Source × Equality)
  filter : Option Equality
  groupBy : List Column
  orderBy : List Column
deriving DecidableEq

abbrev Reader (α : Type) := List Token → Option (α × List Token)

def keyword (s : String) : Token := .word (utf8 s)

def expect (t : Token) : List Token → Option (List Token)
  | [] => none
  | u :: us => if u = t then some us else none

def readColumn : Reader Column
  | .word a :: .symbol 46 :: .word c :: ts => some (⟨a, c⟩, ts)
  | .word a :: ts => some (⟨[], a⟩, ts)
  | _ => none

def readOperand : Reader Operand
  | .string b :: ts => some (.literal b, ts)
  | .param n :: ts => some (.param n, ts)
  | ts => do
    let (c, ts) ← readColumn ts
    return (.column c, ts)

def readEquality : Reader Equality := fun ts => do
  let (a, ts) ← readOperand ts
  let ts ← expect (.symbol 61) ts
  let (b, ts) ← readOperand ts
  return (⟨a, b⟩, ts)

def readScalar : Reader Scalar := fun ts =>
  match expect (keyword "case") ts with
  | some ts => do
    let ts ← expect (keyword "when") ts
    let (c, ts) ← readEquality ts
    let ts ← expect (keyword "then") ts
    let (o, ts) ← readOperand ts
    let ts ← expect (keyword "end") ts
    return (.caseWhen c o, ts)
  | none => do
    let (o, ts) ← readOperand ts
    return (.operand o, ts)

def skipName (ts : List Token) : Option (List Token) :=
  match expect (keyword "as") ts with
  | some (.word _ :: ts) => some ts
  | some (.name _ :: ts) => some ts
  | some _ => none
  | none => some ts

def readItem : Reader Item := fun ts =>
  match expect (keyword "max") ts with
  | some ts => do
    let ts ← expect (.symbol 40) ts
    let (e, ts) ← readScalar ts
    let ts ← expect (.symbol 41) ts
    let ts ← skipName ts
    return (.max e, ts)
  | none => do
    let (e, ts) ← readScalar ts
    let ts ← skipName ts
    return (.scalar e, ts)

def readList {α : Type} (read : Reader α) : ℕ → Reader (List α)
  | 0, _ => none
  | n+1, ts => do
    let (a, ts) ← read ts
    match expect (.symbol 44) ts with
    | some ts => do
      let (as, ts) ← readList read n ts
      return (a :: as, ts)
    | none => return ([a], ts)

def clauseWords : List Token :=
  [keyword "left", keyword "on", keyword "where", keyword "group", keyword "order"]

def readSource : Reader Source
  | .word t :: .word a :: ts =>
    if .word a ∈ clauseWords then some (⟨t, t⟩, .word a :: ts) else some (⟨t, a⟩, ts)
  | .word t :: ts => some (⟨t, t⟩, ts)
  | _ => none

def readClause {α : Type} (first : String) (rest : List Token) (read : Reader α) (absent : α) :
    Reader α := fun ts =>
  match expect (keyword first) ts with
  | some ts => do
    let ts ← rest.foldlM (fun ts t => expect t ts) ts
    read ts
  | none => some (absent, ts)

def readJoin : Reader (Option (Source × Equality)) := fun ts => do
  let (s, ts) ← readSource ts
  let ts ← expect (keyword "on") ts
  let (c, ts) ← readEquality ts
  return (some (s, c), ts)

def Item.isMax : Item → Bool
  | .max _ => true
  | .scalar _ => false

/-- `MAX` is read only together with a `GROUP BY` clause: the fragment has no
aggregate over the whole table. -/
def parse (sql : Bytes) : Option Select := do
  let n := sql.length
  let ts ← expect (keyword "select") (tokens sql)
  let (distinct, ts) ← readClause "distinct" [] (fun ts => some (true, ts)) false ts
  let (items, ts) ← readList readItem n ts
  let ts ← expect (keyword "from") ts
  let (source, ts) ← readSource ts
  let (join, ts) ← readClause "left" [keyword "join"] readJoin none ts
  let (filter, ts) ←
    readClause "where" [] (fun ts => (readEquality ts).map fun r => (some r.1, r.2)) none ts
  let (groupBy, ts) ← readClause "group" [keyword "by"] (readList readColumn n) [] ts
  let (orderBy, ts) ← readClause "order" [keyword "by"] (readList readColumn n) [] ts
  guard (ts = [] ∧ (items.any Item.isMax → groupBy ≠ []))
  return ⟨distinct, items, source, join, filter, groupBy, orderBy⟩

end Sql
