import StudentGrades.ByteRanges
import StudentGrades.ChunkedStream

/-!
# The HTTP server of the first entry

The server reads a request line and header fields from a connection, routes the one
path that is registered, and writes a response; it goes on with the connection until
the client or its own limit ends it. Every request is read through a buffer of its own, and
nothing is sent to a client that has closed its side. Requests with a body or an expectation
are left out.
-/

namespace StudentGrades
open ByteText ChunkedStream

namespace Httplib

abbrev Headers := List (Bytes × Bytes)

/-- The order in which an unordered table hands out its fields. -/
structure FieldOrder where
  order : Headers → Headers
  perm : ∀ headers, (order headers).Perm headers

def FieldOrder.asStored : FieldOrder := ⟨id, fun _ => .refl _⟩

def crlf : Bytes := [13, 10]

def readBuffSize : ℕ := 4096
abbrev Socket := Stream UInt8 readBuffSize

def uriMaxLength : ℕ := 8192
def headerMaxLength : ℕ := 8192
def headerMaxCount : ℕ := 100
def maxLineLength : ℕ := 32768
def keepaliveMaxCount : ℕ := 100

/-- A line with its end, or what there is of it when the client has closed its side
(`eof`); a client that is only silent for too long makes the read fail. -/
def getlineFrom (eof : Bool) : ℕ → UInt8 → Bytes → Socket → Option Bytes × Socket
  | 0, _, _, s => (none, s)
  | room+1, prevByte, line, s =>
    match s.next with
    | none => (if eof ∧ line ≠ [] then some line else none, s)
    | some (byte, t) =>
      if prevByte = 13 ∧ byte = 10 then (some (line ++ [byte]), t)
      else getlineFrom eof room byte (line ++ [byte]) t

def getline (eof : Bool) (s : Socket) : Option Bytes × Socket :=
  getlineFrom eof maxLineLength 0 [] s

def endWithCrlf (line : Bytes) : Bool := crlf.isSuffixOf line

structure Request where
  method : Bytes
  target : Bytes
  version : Bytes
  path : Bytes
  params : Params
  headers : Headers

def Request.empty : Request := ⟨[], [], [], [], [], []⟩

def methods : List Bytes :=
  ["GET", "HEAD", "POST", "PUT", "DELETE", "CONNECT", "OPTIONS", "TRACE", "PATCH", "PRI"].map utf8

/-- The words of the line are stored even where the line is refused. -/
def parseRequestLine (line : Bytes) : Bool × Request :=
  let s := cstr line
  if !endWithCrlf s then (false, .empty)
  else
    let words := split 32 (s.take (s.length - 2))
    let req := { Request.empty with
      method := words.getD 0 []
      target := words.getD 1 []
      version := words.getD 2 [] }
    if words.length ≠ 3 then (false, req)
    else if !methods.contains req.method then (false, req)
    else if req.version ≠ utf8 "HTTP/1.1" ∧ req.version ≠ utf8 "HTTP/1.0" then (false, req)
    else
      let target := req.target.takeWhile (· ≠ 35)
      let (lhs, rhs) := divide 63 target
      (true, { req with target := target, path := decodePath lhs false, params := parseQueryText rhs })

def toLower (b : UInt8) : UInt8 :=
  if 65 ≤ b ∧ b ≤ 90 ∨ 192 ≤ b ∧ b ≤ 222 ∧ b ≠ 215 then b + 32 else b

def caseEqual (a b : Bytes) : Bool := a.map toLower == b.map toLower

def isTokenChar (c : UInt8) : Bool := FormEncoding.isAlnum c || c ∈ utf8 "!#$%&'*+-.^_`|~"

def isFieldName (s : Bytes) : Bool := s ≠ [] && s.all isTokenChar

def isFieldVchar (c : UInt8) : Bool := (33 ≤ c && c ≤ 126) || 128 ≤ c

def isFieldValue (s : Bytes) : Bool :=
  s.all (fun c => isSpaceOrTab c || isFieldVchar c) && (s.head?.all isFieldVchar) &&
    (s.getLast?.all isFieldVchar)

def hasHeader (headers : Headers) (key : Bytes) : Bool := headers.any fun h => caseEqual h.1 key

def firstValue (headers : Headers) (key : Bytes) : Bytes :=
  match headers.find? fun h => caseEqual h.1 key with
  | none => []
  | some h => cstr h.2

/-- Among fields of one name the table decides. -/
def getHeaderValue (o : FieldOrder) (headers : Headers) (key : Bytes) : Bytes :=
  firstValue (o.order headers) key

def trimRight (s : Bytes) : Bytes := (s.reverse.dropWhile isSpaceOrTab).reverse

def parseHeader (text : Bytes) : Option (Bytes × Bytes) :=
  let text := trimRight text
  let name := text.takeWhile (· ≠ 58)
  if !isFieldName name then none
  else
    match text.dropWhile (· ≠ 58) with
    | [] => none
    | _ :: rest =>
      let val := rest.dropWhile isSpaceOrTab
      if !isFieldValue val then none
      else if caseEqual name (utf8 "Location") || caseEqual name (utf8 "Referer") then some (name, val)
      else some (name, decodePath val false)

structure HeadersRead where
  ok : Bool
  headers : Headers
  rest : Socket

/-- At most `left` more fields. A line without its end is skipped, and nothing follows it. -/
def readHeadersFrom (eof : Bool) : ℕ → Socket → HeadersRead
  | left, s =>
    match getline eof s with
    | (none, t) => ⟨false, [], t⟩
    | (some line, t) =>
      if !endWithCrlf line then ⟨false, [], t⟩
      else if line.length = 2 then ⟨true, [], t⟩
      else if headerMaxLength < line.length then ⟨false, [], t⟩
      else
        match left, parseHeader (line.take (line.length - 2)) with
        | 0, _ => ⟨false, [], t⟩
        | _+1, none => ⟨false, [], t⟩
        | left+1, some header =>
          let r := readHeadersFrom eof left t
          ⟨r.ok, header :: r.headers, r.rest⟩

def readHeaders (eof : Bool) (s : Socket) : HeadersRead := readHeadersFrom eof headerMaxCount s

structure Reply where
  status : ℕ
  headers : Headers
  body : Bytes
  omitsBody : Bool
deriving DecidableEq

def fieldLine (h : Bytes × Bytes) : Bytes := h.1 ++ utf8 ": " ++ h.2 ++ crlf

def setUnlessThere (headers : Headers) (key val : Bytes) : Headers :=
  if hasHeader headers key then headers else headers ++ [(key, val)]

def rangeOffsetAndLength (r : ByteRange) : ℕ × ℕ := (r.1.toNat, (r.2 - r.1).toNat + 1)

def contentRangeField (r : ByteRange) (contentLength : ℕ) : Bytes :=
  let (st, length) := rangeOffsetAndLength r
  utf8 "bytes " ++ natText st ++ utf8 "-" ++ natText (st + length - 1) ++ utf8 "/" ++ natText contentLength

def partOf (body : Bytes) (r : ByteRange) : Bytes :=
  let (offset, length) := rangeOffsetAndLength r
  (body.drop offset).take length

def writePart (boundary contentType body : Bytes) (r : ByteRange) : Bytes :=
  utf8 "--" ++ boundary ++ crlf ++
    (if contentType = [] then [] else fieldLine (utf8 "Content-Type", contentType)) ++
    fieldLine (utf8 "Content-Range", contentRangeField r body.length) ++ crlf ++ partOf body r ++ crlf

def multipartRangesData (boundary contentType body : Bytes) (ranges : List ByteRange) : Bytes :=
  ranges.flatMap (writePart boundary contentType body) ++ (utf8 "--" ++ boundary ++ utf8 "--")

/-- A single range is the body itself, several are the parts of one. -/
def applyRanges (boundary : Bytes) (headers : Headers) (body : Bytes) : List ByteRange → Headers × Bytes
  | [] => (headers, body)
  | [r] => (headers ++ [(utf8 "Content-Range", contentRangeField r body.length)], partOf body r)
  | ranges =>
    let isType (h : Bytes × Bytes) : Bool := caseEqual h.1 (utf8 "Content-Type")
    let contentType := ((headers.find? isType).map Prod.snd).getD []
    (headers.eraseP isType ++ [(utf8 "Content-Type", utf8 "multipart/byteranges; boundary=" ++ boundary)],
      multipartRangesData boundary contentType body ranges)

/-- The header fields that the server adds to a response. -/
def writeResponseCore (o : FieldOrder) (closeConnection : Bool) (req : Request) (status : ℕ)
    (headers : Headers) (body : Bytes) (withContent : Bool) : Reply :=
  let headers :=
    if withContent ∧ body ≠ [] then headers ++ [(utf8 "Content-Length", natText body.length)] else headers
  let headers := headers ++
    [if closeConnection ∨ getHeaderValue o req.headers (utf8 "Connection") = utf8 "close" then
      (utf8 "Connection", utf8 "close")
    else (utf8 "Keep-Alive", utf8 "timeout=5, max=100")]
  let headers := if body ≠ [] then setUnlessThere headers (utf8 "Content-Type") (utf8 "text/plain")
    else setUnlessThere headers (utf8 "Content-Length") (utf8 "0")
  let headers := if req.method = utf8 "HEAD" then
      setUnlessThere headers (utf8 "Accept-Ranges") (utf8 "bytes")
    else headers
  ⟨status, headers, body, req.method = utf8 "HEAD"⟩

def writeError (o : FieldOrder) (closeConnection : Bool) (req : Request) (status : ℕ) : Reply :=
  writeResponseCore o closeConnection req status [] [] false

def statusMessage : ℕ → Bytes
  | 200 => utf8 "OK"
  | 206 => utf8 "Partial Content"
  | 400 => utf8 "Bad Request"
  | 404 => utf8 "Not Found"
  | 414 => utf8 "URI Too Long"
  | 416 => utf8 "Range Not Satisfiable"
  | _ => utf8 "Internal Server Error"

def Reply.write (o : FieldOrder) (r : Reply) : Bytes :=
  utf8 "HTTP/1.1 " ++ natText r.status ++ utf8 " " ++ statusMessage r.status ++ crlf ++
    (o.order r.headers).flatMap fieldLine ++ crlf ++ if r.omitsBody then [] else r.body

end Httplib

open Httplib

namespace MainA

def handler (g_conn : Option Exec) (req : Request) : Bytes :=
  let classFilter :=
    if hasParam req.params (utf8 "class") then getParamValue req.params (utf8 "class") else []
  Handler.handleIndex g_conn classFilter

end MainA

namespace Httplib

/-- What the library and its platform decide: the `Accept` values that can be read, the
orders of fields of one name and of ranges that start together, and the random part of a
boundary. -/
structure Platform where
  accepts : Bytes → Bool
  fields : FieldOrder
  rangeSort : RangeSort
  randomString : ℕ → Bytes
  length : ∀ n, (randomString n).length = 16
  alnum : ∀ n, (randomString n).all FormEncoding.isAlnum

def Platform.boundary (pf : Platform) (n : ℕ) : Bytes :=
  utf8 "--cpp-httplib-multipart-data-" ++ pf.randomString n

def Platform.plain : Platform where
  accepts _ := true
  fields := .asStored
  rangeSort := .stable
  randomString _ := List.replicate 16 48
  length _ := rfl
  alnum _ := rfl

inductive Outcome
  | closed
  | leftOut
  | replied (reply : Reply) (rest : Socket) (connectionClosed : Bool)

/-- Requests whose further reading is left out. -/
def Request.leftOut (o : FieldOrder) (req : Request) : Bool :=
  getHeaderValue o req.headers (utf8 "Expect") == utf8 "100-continue" ||
    (["POST", "PUT", "PATCH", "DELETE"].map utf8).contains req.method ||
    hasHeader req.headers (utf8 "Content-Length") || hasHeader req.headers (utf8 "Transfer-Encoding")

def Request.closes (o : FieldOrder) (req : Request) : Bool :=
  getHeaderValue o req.headers (utf8 "Connection") == utf8 "close" ||
    (req.version == utf8 "HTTP/1.0" &&
      getHeaderValue o req.headers (utf8 "Connection") != utf8 "Keep-Alive")

def requestRanges (o : FieldOrder) (headers : Headers) : Option (List ByteRange) :=
  if hasHeader headers (utf8 "Range") then parseRangeHeader (getHeaderValue o headers (utf8 "Range"))
  else some []

def respondWith (pf : Platform) (n : ℕ) (closeConnection : Bool) (req : Request) (headers : Headers)
    (body : Bytes) (ranges : List ByteRange) : Reply :=
  match servedRanges pf.rangeSort body.length ranges with
  | none => writeResponseCore pf.fields closeConnection req 416 headers [] false
  | some served =>
    let (headers, body) := applyRanges (pf.boundary n) headers body served
    writeResponseCore pf.fields closeConnection req (if ranges = [] then 200 else 206) headers body true

theorem respondWith_nil (pf : Platform) (n : ℕ) (closeConnection : Bool) (req : Request) (headers : Headers)
    (body : Bytes) : respondWith pf n closeConnection req headers body [] =
      writeResponseCore pf.fields closeConnection req 200 headers body true := by
  rw [respondWith, servedRanges_nil]
  rfl

/-- The one route answers `GET` and `HEAD`; a method without routes is not found, one
that the server does not know to route is a bad request. -/
def routing (pf : Platform) (n : ℕ) (g_conn : Option Exec) (closeConnection : Bool) (req : Request)
    (ranges : List ByteRange) : Reply :=
  if req.method = utf8 "GET" ∨ req.method = utf8 "HEAD" then
    if req.path = utf8 "/" then
      respondWith pf n closeConnection req [(utf8 "Content-Type", contentType)] (MainA.handler g_conn req) ranges
    else writeError pf.fields closeConnection req 404
  else if req.method = utf8 "OPTIONS" then writeError pf.fields closeConnection req 404
  else writeError pf.fields closeConnection req 400

def answerRequest (pf : Platform) (n : ℕ) (g_conn : Option Exec) (closeConnection : Bool) (req : Request)
    (rest : Socket) : Outcome :=
  match requestRanges pf.fields req.headers with
  | none => .replied (writeError pf.fields closeConnection req 416) rest (req.closes pf.fields)
  | some ranges =>
    if req.leftOut pf.fields then .leftOut
    else .replied (routing pf n g_conn closeConnection req ranges) rest (req.closes pf.fields)

/-- The request after which `n` more are allowed. -/
def processRequest (pf : Platform) (n : ℕ) (g_conn : Option Exec) (eof closeConnection : Bool)
    (s : Socket) : Outcome :=
  match getline eof s with
  | (none, _) => .closed
  | (some line, t) =>
    let (parsed, req) := parseRequestLine line
    if !parsed then .replied (writeError pf.fields closeConnection req 400) t false
    else
      let fields := readHeaders eof t
      let req := { req with headers := fields.headers }
      if !fields.ok then .replied (writeError pf.fields closeConnection req 400) fields.rest false
      else if uriMaxLength < req.target.length then
        .replied (writeError pf.fields closeConnection req 414) (readHeaders eof fields.rest).rest false
      else if hasHeader req.headers (utf8 "Accept") &&
          !pf.accepts (getHeaderValue pf.fields req.headers (utf8 "Accept")) then
        .replied (writeError pf.fields closeConnection req 400) fields.rest (req.closes pf.fields)
      else answerRequest pf n g_conn closeConnection req fields.rest

/-- At most so many, and none after one that closes the connection. -/
def untilClosed {α : Type*} (closes : α → Bool) : ℕ → List α → List α
  | 0, _ => []
  | _, [] => []
  | count+1, a :: as => a :: if closes a then [] else untilClosed closes count as

/-- At most `count` more requests, each with a reader of its own. A client that has closed
its side may be gone when an answer is written and nothing that it has sent is left to read. -/
def serveFrom (pf : Platform) (g_conn : Option Exec) (eof : Bool) :
    ℕ → Socket → List (Reply × Bool)
  | 0, _ => []
  | count+1, s =>
    match processRequest pf count g_conn eof (count = 0) s with
    | .replied reply rest connectionClosed =>
      (reply, eof && rest.chunks.isEmpty) ::
        if connectionClosed then [] else serveFrom pf g_conn eof count rest.renew
    | _ => []

def serve (pf : Platform) (g_conn : Option Exec) (eof : Bool) (chunks : List (Chunk UInt8 readBuffSize)) :
    List (Reply × Bool) :=
  serveFrom pf g_conn eof keepaliveMaxCount ⟨[], chunks⟩

/-- What is sent: of an answer to a client that may be gone, only what was written before. -/
def sent (o : FieldOrder) (cut : ℕ) (answers : List (Reply × Bool)) : Bytes :=
  answers.flatMap fun a => if a.2 then (a.1.write o).take cut else a.1.write o

end Httplib
end StudentGrades
