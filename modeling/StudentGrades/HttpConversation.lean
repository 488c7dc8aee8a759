import StudentGrades.HttpReplies
import StudentGrades.HttpRequests

/-!
# Conversations with a browser

A browser sends requests and lines that are none over one connection, and keeps its side
open. Each message is read in chunks, and what the last of them holds beyond its end is
gone with the reader. To what did arrive the server writes responses that the browser reads
back: a page, that there is no such page, or that the line is no request. A request that
closes the connection, or the last one that is allowed, ends it.
-/

namespace StudentGrades
open ByteText FormEncoding ChunkedStream

namespace Httplib

inductive Message (k : Kept) (pf : Platform)
  | get (r : GetRequest k pf)
  | garbage (line : Bytes) (oneLine : (10 : UInt8) ∉ line) (short : line.length + 2 ≤ maxLineLength)
      (refused : (parseRequestLine (line ++ crlf)).1 = false)

namespace Message
variable {k : Kept} {pf : Platform}

def bytes : Message k pf → Bytes
  | get r => r.bytes
  | garbage line _ _ _ => line ++ crlf

def closes : Message k pf → Bool
  | get r => r.closes
  | garbage _ _ _ _ => false

def answer (g_conn : Option Exec) : Message k pf → ℕ × Bytes
  | get r =>
    match r.target.wanted with
    | some classFilter => (200, Handler.handleIndex g_conn classFilter)
    | none => (404, [])
  | garbage _ _ _ _ => (400, [])

def reply (g_conn : Option Exec) (closeConnection : Bool) : Message k pf → Reply
  | get r => r.reply g_conn closeConnection
  | garbage line _ _ _ => writeError pf.fields closeConnection (parseRequestLine (line ++ crlf)).2 400

theorem processRequest_bytes (m : Message k pf) (n : ℕ) (g_conn : Option Exec) (eof closeConnection : Bool)
    {s t : Socket} (h : Reads s m.bytes t) :
    processRequest pf n g_conn eof closeConnection s =
      .replied (m.reply g_conn closeConnection) t m.closes := by
  cases m with
  | get r => exact r.processRequest_bytes n g_conn eof closeConnection h
  | garbage line oneLine short refused =>
    rw [processRequest, getline_line eof oneLine short h]
    dsimp only
    rw [refused, if_pos (by simp)]
    rfl

theorem reply_framed (m : Message k pf) (g_conn : Option Exec) (closeConnection : Bool) :
    (m.reply g_conn closeConnection).Framed := by
  cases m with
  | get r =>
    have hget : utf8 "GET" ≠ utf8 "HEAD" := by decide
    have htype : Clean (utf8 "Content-Type", contentType) := by decide
    rw [reply, GetRequest.reply]
    split
    · exact writeResponseCore_framed pf.fields closeConnection 200 (List.forall_mem_singleton.2 htype) rfl
        (fun _ => rfl) fun h => absurd h hget
    · exact writeError_framed pf.fields closeConnection _ 404
  | garbage line oneLine short refused => exact writeError_framed pf.fields closeConnection _ 400

theorem reply_answer (m : Message k pf) (g_conn : Option Exec) (closeConnection : Bool) :
    ((m.reply g_conn closeConnection).status, (m.reply g_conn closeConnection).body) = m.answer g_conn := by
  cases m with
  | get r =>
    rw [reply, GetRequest.reply, answer]
    cases r.target.wanted with
    | some classFilter => rfl
    | none => rfl
  | garbage line oneLine short refused => rfl

end Message

variable {k : Kept} {pf : Platform}

structure Delivery (k : Kept) (pf : Platform) where
  message : Message k pf
  lost : Bytes
  chunks : List (Chunk UInt8 readBuffSize)
  arrives : Arrives message.bytes lost chunks

def answered : ℕ → List (Message k pf) → List (Message k pf) := untilClosed Message.closes

def replies (g_conn : Option Exec) : ℕ → List (Message k pf) → List Reply
  | 0, _ => []
  | _, [] => []
  | count+1, m :: messages =>
    m.reply g_conn (count = 0) :: if m.closes then [] else replies g_conn count messages

theorem serveFrom_deliveries (g_conn : Option Exec) (count : ℕ) (deliveries : List (Delivery k pf)) :
    serveFrom pf g_conn false count ⟨[], deliveries.flatMap Delivery.chunks⟩ =
      (replies g_conn count (deliveries.map Delivery.message)).map fun r => (r, false) := by
  induction count generalizing deliveries with
  | zero => rfl
  | succ count ih =>
    cases deliveries with
    | nil =>
      rw [List.flatMap_nil, serveFrom, processRequest_silent]
      rfl
    | cons d deliveries =>
      have hread := d.arrives.reads (deliveries.flatMap Delivery.chunks)
      rw [List.flatMap_cons, serveFrom, d.message.processRequest_bytes _ g_conn false _ hread, List.map_cons,
        replies]
      dsimp only [Stream.renew]
      rw [ih, List.map_cons, Bool.false_and]
      split_ifs <;> rfl

theorem sent_deliveries (g_conn : Option Exec) (o : FieldOrder) (cut : ℕ) (deliveries : List (Delivery k pf)) :
    sent o cut (serve pf g_conn false (deliveries.flatMap Delivery.chunks)) =
      (replies g_conn keepaliveMaxCount (deliveries.map Delivery.message)).flatMap (Reply.write o) := by
  rw [serve, serveFrom_deliveries, sent, List.flatMap_map]
  rfl

theorem replies_framed (g_conn : Option Exec) (count : ℕ) (messages : List (Message k pf)) :
    ∀ r ∈ replies g_conn count messages, r.Framed := by
  induction count generalizing messages with
  | zero => simp [replies]
  | succ count ih =>
    cases messages with
    | nil => simp [replies]
    | cons m messages =>
      rw [replies]
      refine List.forall_mem_cons.2 ⟨m.reply_framed g_conn _, ?_⟩
      split_ifs
      · simp
      · exact ih messages

theorem replies_answers (g_conn : Option Exec) (count : ℕ) (messages : List (Message k pf)) :
    (replies g_conn count messages).map (fun r => (r.status, r.body)) =
      (answered count messages).map (Message.answer g_conn) := by
  induction count generalizing messages with
  | zero => rfl
  | succ count ih =>
    cases messages with
    | nil => rfl
    | cons m messages =>
      rw [replies, answered, untilClosed, List.map_cons, List.map_cons, m.reply_answer]
      split_ifs
      · rfl
      · rw [ih, answered]

theorem bytes_ne (m : Message k pf) : m.bytes ≠ [] := by
  cases m with
  | get r => simp [Message.bytes, GetRequest.bytes, crlf]
  | garbage line oneLine short refused => simp [Message.bytes, crlf]

theorem serve_pipelined (g_conn : Option Exec) (m : Message k pf) (further : Bytes)
    (hfits : (m.bytes ++ further).length ≤ readBuffSize) :
    serve pf g_conn false
        [⟨m.bytes ++ further, List.append_ne_nil_of_left_ne_nil (bytes_ne m) further, hfits⟩] =
      [(m.reply g_conn false, false)] := by
  have harrives : Arrives m.bytes further
      ([⟨m.bytes ++ further, List.append_ne_nil_of_left_ne_nil (bytes_ne m) further, hfits⟩] :
        List (Chunk UInt8 readBuffSize)) :=
    ⟨[], _, rfl, by simp [items], List.length_pos_iff.2 (bytes_ne m)⟩
  have hserve := serveFrom_deliveries g_conn keepaliveMaxCount [⟨m, further, _, harrives⟩]
  rw [List.flatMap_singleton] at hserve
  rw [serve, hserve, List.map_singleton, keepaliveMaxCount, replies]
  cases m.closes <;> rfl

end Httplib
end StudentGrades
