import Veil.Lib.Reader
import Veil.Wire.Auth

/-!
# Fallback to the website

`Server.Handle` of `core/server.go` up to the start of a session, and
`authPrefix` of `core/fallback.go`.  The server reads the authentication frame
through a reader that keeps what it has read.  When authentication fails, the
website's handler gets that reader; it returns the kept bytes first and goes on
with the connection.

A connection carries the bytes that the client still sends, the error behind
them, and how the transport will cut them: for each read the size it can
return, which may be zero, and whether the last bytes come together with the
error.
-/

namespace Veil.Core

open Lib
open Mux (Byte)

/-- The errors `Server.Handle` tells apart. -/
inductive Err where
  | eof
  | unexpectedEOF
  /-- `wire.ErrProtocol` -/
  | protocol
  /-- `veil: authentication failed` -/
  | authentication
  | canceled
  /-- An error with a `Timeout` method that reports true. -/
  | timeout
  | other
  deriving DecidableEq, Repr

/-- A TLS connection on the server. -/
structure Conn where
  bytes : List Byte
  ending : Err
  turns : List (Nat × Bool)
  deriving DecidableEq, Repr

namespace Conn

/-- `Conn.Read` -/
def read (c : Conn) (room : Nat) : (List Byte × Option Err) × Conn :=
  if room = 0 then (([], none), c)
  else if c.bytes = [] then (([], some c.ending), c)
  else
    match c.turns with
    | [] => ((c.bytes.take room, none), { c with bytes := c.bytes.drop room })
    | (size, last) :: turns =>
        let n := min room size
        let left := c.bytes.drop n
        ((c.bytes.take n, if last = true ∧ left = [] then some c.ending else none),
          { c with bytes := left, turns := turns })

def work (c : Conn) : Nat := c.turns.length + if c.bytes = [] then 0 else 1

end Conn

def conn : Reader Conn Byte Err where
  read := Conn.read
  work := Conn.work

/-! ## The reader that keeps what it has read -/

/-- `authPrefix`; `bytes` are the first `size` bytes of its buffer. -/
structure AuthPrefix where
  conn : Conn
  bytes : List Byte := []
  offset : Nat := 0
  replay : Bool := false
  deriving DecidableEq, Repr

namespace AuthPrefix

/-- The length of the buffer: a header and an authentication payload. -/
def capacity : Nat := Wire.Go.authHeaderSize + Wire.Go.authSize

def size (p : AuthPrefix) : Nat := p.bytes.length

/-- `authPrefix.Read` -/
def read (p : AuthPrefix) (room : Nat) : (List Byte × Option Err) × AuthPrefix :=
  if p.replay = true ∧ p.offset < p.size then
    let got := (p.bytes.drop p.offset).take room
    ((got, none), { p with offset := p.offset + got.length })
  else
    let (result, conn) := p.conn.read room
    if p.replay = false then
      (result, { p with
        conn := conn, bytes := p.bytes ++ result.1.take (capacity - p.size) })
    else (result, { p with conn := conn })

def work (p : AuthPrefix) : Nat :=
  p.conn.work + if p.replay = true then p.size - p.offset else 0

end AuthPrefix

def authPrefix : Reader AuthPrefix Byte Err where
  read := AuthPrefix.read
  work := AuthPrefix.work

/-! ## Reading the authentication frame -/

section

variable {σ : Type} (R : Reader σ Byte Err)

/-- `Reader.ReadHeader` -/
def readHeader (s : σ) : Except Err (Byte × Nat) × σ :=
  match R.readFull .eof .unexpectedEOF Wire.Go.authHeaderSize s with
  | (.error e, s) => (.error e, s)
  | (.ok h, s) =>
      let n := (h.getD 1 0).toNat <<< 16 ||| (h.getD 2 0).toNat <<< 8 ||| (h.getD 3 0).toNat
      if h.headD 0 ≠ Wire.Go.auth ∨ n ≠ Wire.Go.authSize then (.error .protocol, s)
      else (.ok (h.headD 0, n), s)

/-- `Reader.Read` -/
def readMessage (s : σ) : Except Err (Byte × List Byte) × σ :=
  match readHeader R s with
  | (.error e, s) => (.error e, s)
  | (.ok (t, n), s) =>
      match R.readFull .eof .unexpectedEOF n s with
      | (.error e, s) => (.error e, s)
      | (.ok p, s) => (.ok (t, p), s)

end

/-! ## The server -/

/-- What `Server.Handle` uses of its settings. -/
structure ServerConfig where
  key : List Byte
  fallback : Bool

/-- What the TLS handshake and its context come to. -/
structure Handshake where
  failed : Option Err := none
  protocol : List Char := []
  exporter : Except Err (List Byte)
  /-- `hsCtx.Err()` when fallback is considered. -/
  expired : Option Err := none
  /-- What clearing the deadline returns. -/
  deadline : Option Err := none

/-- The connection the website's handler is given. -/
inductive Front where
  | plain (conn : Conn)
  | replayed (p : AuthPrefix)

/-- How far `Server.Handle` gets before a session would start. -/
inductive Handled where
  | failed (operation : String) (e : Err)
  /-- The website's handler is called with this connection. -/
  | fallback (front : Front) (protocol : List Char)
  | session (conn : Conn)

variable (hmac : List Byte → List Byte → Vector Byte 32)

/-- What is made of the authentication message; `none` when it is accepted. -/
def refusal (key exporter : List Byte) : Except Err (Byte × List Byte) → Option (Option Err)
  | .error e => some (some e)
  | .ok (typ, p) =>
      if typ ≠ Wire.Go.auth ∨ Wire.Go.verifyAuth hmac key exporter p = false then some none
      else none

/-- The branch of `Server.Handle` for a connection that is not authenticated. -/
def unauthenticated (h : Handshake) (p : AuthPrefix) (err : Option Err) : Handled :=
  let failedAuth := err = none ∨ err = some .protocol ∨
    0 < p.size ∧ (err = some .eof ∨ err = some .unexpectedEOF)
  let reason := err.getD .authentication
  if ¬ failedAuth ∨ h.expired ≠ none ∨ reason = .timeout then .failed "authentication" reason
  else
    match h.deadline with
    | some e => .failed "" e
    | none => .fallback (.replayed { p with replay := true }) h.protocol

/-- `Server.Handle` up to the start of a session. -/
def handle (cfg : ServerConfig) (h : Handshake) (c : Conn) : Handled :=
  match h.failed with
  | some e => .failed "TLS handshake" e
  | none =>
      if cfg.fallback = true ∧ h.protocol = "h2".toList then
        match h.expired, h.deadline with
        | some e, _ => .failed "TLS fallback" e
        | none, some e => .failed "" e
        | none, none => .fallback (.plain c) "h2".toList
      else
        match h.exporter with
        | .error e => .failed "" e
        | .ok exporter =>
            if cfg.fallback = true then
              let (message, p) := readMessage authPrefix { conn := c }
              match refusal hmac cfg.key exporter message with
              | none => .session p.conn
              | some err => unauthenticated h p err
            else
              let (message, c) := readMessage conn c
              match refusal hmac cfg.key exporter message with
              | none => .session c
              | some err => .failed "authentication" (err.getD .authentication)

/-! ## The readers return the client's stream -/

/-- Everything a read of a connection can do. -/
theorem Conn.read_cases (c : Conn) (room : Nat) :
    room = 0 ∧ c.read room = (([], none), c) ∨
    c.bytes = [] ∧ c.read room = (([], some c.ending), c) ∨
    c.bytes ≠ [] ∧ c.turns = [] ∧
      c.read room = ((c.bytes.take room, none), { c with bytes := c.bytes.drop room }) ∨
    ∃ size last turns, c.turns = (size, last) :: turns ∧
      c.read room = ((c.bytes.take (min room size),
        if last = true ∧ c.bytes.drop (min room size) = [] then some c.ending else none),
        { c with bytes := c.bytes.drop (min room size), turns := turns }) := by
  unfold Conn.read
  by_cases none_ : room = 0
  · exact .inl ⟨none_, if_pos none_⟩
  by_cases out : c.bytes = []
  · exact .inr (.inl ⟨out, by rw [if_neg none_, if_pos out]⟩)
  rw [if_neg none_, if_neg out]
  cases cuts : c.turns with
  | nil => exact .inr (.inr (.inl ⟨out, rfl, rfl⟩))
  | cons turn turns => exact .inr (.inr (.inr ⟨turn.1, turn.2, turns, rfl, rfl⟩))

theorem conn_streams : conn.Streams Conn.bytes Conn.ending := by
  constructor
  · intro c room
    show (c.read room).1.1 ++ (c.read room).2.bytes = c.bytes
    rcases c.read_cases room with ⟨-, done⟩ | ⟨out, done⟩ | ⟨-, -, done⟩ |
      ⟨size, last, turns, -, done⟩ <;> rw [done]
    · rfl
    · rfl
    · exact List.take_append_drop _ _
    · exact List.take_append_drop _ _
  · intro c room
    show (c.read room).1.1.length ≤ room
    rcases c.read_cases room with ⟨-, done⟩ | ⟨out, done⟩ | ⟨-, -, done⟩ |
      ⟨size, last, turns, -, done⟩ <;> rw [done]
    · exact Nat.zero_le _
    · exact Nat.zero_le _
    · exact List.length_take_le _ _
    · exact (List.length_take_le _ _).trans (Nat.min_le_left _ _)
  · intro c room e failed
    change (c.read room).1.2 = some e at failed
    show (c.read room).2.bytes = [] ∧ e = c.ending
    rcases c.read_cases room with ⟨-, done⟩ | ⟨out, done⟩ | ⟨-, -, done⟩ |
      ⟨size, last, turns, -, done⟩ <;> rw [done] at failed ⊢
    · cases failed
    · exact ⟨out, (Option.some.inj failed).symm⟩
    · cases failed
    · simp only at failed
      split at failed
      · next both => exact ⟨both.2, (Option.some.inj failed).symm⟩
      · cases failed
  · intro c room
    show (c.read room).2.ending = c.ending
    rcases c.read_cases room with ⟨-, done⟩ | ⟨out, done⟩ | ⟨-, -, done⟩ |
      ⟨size, last, turns, -, done⟩ <;> rw [done]
  · intro c room
    show (c.read room).2.work ≤ c.work
    rcases c.read_cases room with ⟨-, done⟩ | ⟨out, done⟩ | ⟨some_, cuts, done⟩ |
      ⟨size, last, turns, cuts, done⟩ <;> rw [done]
    · unfold Conn.work
      simp only [if_neg some_, cuts]
      split <;> simp
    · unfold Conn.work
      simp only [cuts, List.length_cons]
      split_ifs <;> omega
  · intro c room fine
    change (c.read room).1.2 = none at fine
    show (c.read room).1.1.length = room ∨ (c.read room).2.work < c.work
    rcases c.read_cases room with ⟨none_, done⟩ | ⟨out, done⟩ | ⟨some_, cuts, done⟩ |
      ⟨size, last, turns, cuts, done⟩ <;> rw [done] at fine ⊢
    · exact .inl none_.symm
    · cases fine
    · by_cases long : room ≤ c.bytes.length
      · exact .inl (List.length_take_of_le long)
      · have all : c.bytes.drop room = [] := List.drop_of_length_le (by omega)
        right
        unfold Conn.work
        simp [cuts, all, some_]
    · by_cases out : c.bytes = []
      · right
        unfold Conn.work
        simp [cuts, out]
      · right
        unfold Conn.work
        simp only [cuts, List.length_cons, if_neg out]
        split_ifs <;> omega

/-- The bytes a reader with a prefix still has to return. -/
def AuthPrefix.rest (p : AuthPrefix) : List Byte :=
  (if p.replay = true then p.bytes.drop p.offset else []) ++ p.conn.bytes

def AuthPrefix.ending (p : AuthPrefix) : Err := p.conn.ending

/-- Everything a read through a prefix can do. -/
theorem AuthPrefix.read_cases (p : AuthPrefix) (room : Nat) :
    p.replay = true ∧ p.offset < p.size ∧
      p.read room = ((((p.bytes.drop p.offset).take room), none),
        { p with offset := p.offset + ((p.bytes.drop p.offset).take room).length }) ∨
    p.replay = true ∧ p.size ≤ p.offset ∧
      p.read room = ((p.conn.read room).1, { p with conn := (p.conn.read room).2 }) ∨
    p.replay = false ∧
      p.read room = ((p.conn.read room).1, { p with
        conn := (p.conn.read room).2
        bytes := p.bytes ++ (p.conn.read room).1.1.take (capacity - p.size) }) := by
  unfold AuthPrefix.read
  by_cases kept : p.replay = true ∧ p.offset < p.size
  · exact .inl ⟨kept.1, kept.2, if_pos kept⟩
  · rw [if_neg kept]
    cases live : p.replay with
    | true =>
        rw [live] at kept
        exact .inr (.inl ⟨rfl, Nat.le_of_not_lt fun less => kept ⟨rfl, less⟩, rfl⟩)
    | false => exact .inr (.inr ⟨rfl, rfl⟩)

/-- A reader that has nothing to replay has what its connection has. -/
theorem AuthPrefix.rest_live {p : AuthPrefix} (live : p.replay = false ∨ p.size ≤ p.offset) :
    p.rest = p.conn.bytes := by
  unfold AuthPrefix.rest
  rcases live with recording | out
  · rw [recording]
    rfl
  · rw [List.drop_of_length_le out, ite_self, List.nil_append]

/-- A piece from the front of a list, and the list without it. -/
theorem take_append_rest {α : Type*} (items : List α) (room : Nat) :
    items.take room ++ items.drop (items.take room).length = items := by
  rcases Nat.le_total room items.length with fits | all
  · rw [List.length_take_of_le fits, List.take_append_drop]
  · rw [List.take_of_length_le all, List.drop_length, List.append_nil]

theorem authPrefix_streams : authPrefix.Streams AuthPrefix.rest AuthPrefix.ending := by
  constructor
  · intro p room
    show (p.read room).1.1 ++ (p.read room).2.rest = p.rest
    rcases p.read_cases room with ⟨replay, -, done⟩ | ⟨-, out, done⟩ | ⟨live, done⟩ <;>
      rw [done]
    · unfold AuthPrefix.rest
      simp only [if_pos replay]
      rw [← List.append_assoc, ← List.drop_drop, take_append_rest]
    · rw [AuthPrefix.rest_live (.inr out), AuthPrefix.rest_live (.inr (by exact out))]
      exact conn_streams.next p.conn room
    · rw [AuthPrefix.rest_live (.inl live), AuthPrefix.rest_live (.inl (by exact live))]
      exact conn_streams.next p.conn room
  · intro p room
    show (p.read room).1.1.length ≤ room
    rcases p.read_cases room with ⟨-, -, done⟩ | ⟨-, -, done⟩ | ⟨-, done⟩ <;> rw [done]
    · exact List.length_take_le _ _
    · exact conn_streams.short p.conn room
    · exact conn_streams.short p.conn room
  · intro p room e failed
    change (p.read room).1.2 = some e at failed
    show (p.read room).2.rest = [] ∧ e = p.conn.ending
    rcases p.read_cases room with ⟨-, -, done⟩ | ⟨-, out, done⟩ | ⟨live, done⟩ <;>
      rw [done] at failed ⊢
    · cases failed
    · rw [AuthPrefix.rest_live (.inr (by exact out))]
      exact conn_streams.ends p.conn room e failed
    · rw [AuthPrefix.rest_live (.inl (by exact live))]
      exact conn_streams.ends p.conn room e failed
  · intro p room
    show (p.read room).2.conn.ending = p.conn.ending
    rcases p.read_cases room with ⟨-, -, done⟩ | ⟨-, -, done⟩ | ⟨-, done⟩ <;> rw [done]
    · exact conn_streams.same p.conn room
    · exact conn_streams.same p.conn room
  · intro p room
    show (p.read room).2.work ≤ p.work
    have steady : (p.conn.read room).2.work ≤ p.conn.work := conn_streams.steady p.conn room
    rcases p.read_cases room with ⟨replay, -, done⟩ | ⟨replay, -, done⟩ | ⟨live, done⟩ <;>
      rw [done] <;> unfold AuthPrefix.work AuthPrefix.size
    · simp only [replay, if_true]
      omega
    · simp only [replay, if_true]
      omega
    · simp only [live, Bool.false_eq_true, if_false]
      omega
  · intro p room fine
    change (p.read room).1.2 = none at fine
    show (p.read room).1.1.length = room ∨ (p.read room).2.work < p.work
    have progress : (p.conn.read room).1.2 = none →
        (p.conn.read room).1.1.length = room ∨ (p.conn.read room).2.work < p.conn.work :=
      conn_streams.progress p.conn room
    rcases p.read_cases room with ⟨replay, less, done⟩ | ⟨replay, -, done⟩ | ⟨live, done⟩ <;>
      rw [done] at fine ⊢
    · -- a short piece is the last one of the prefix
      simp only [List.length_take, List.length_drop]
      unfold AuthPrefix.work
      unfold AuthPrefix.size at less ⊢
      simp only [replay, if_true]
      omega
    · refine (progress fine).imp_right fun fewer => ?_
      unfold AuthPrefix.work AuthPrefix.size
      simp only [replay, if_true]
      omega
    · refine (progress fine).imp_right fun fewer => ?_
      unfold AuthPrefix.work AuthPrefix.size
      simp only [live, Bool.false_eq_true, if_false]
      omega

/-! ## What the prefix keeps -/

/-- A prefix that has kept every byte read so far, with space for `left` more. -/
structure Keeps (stream : List Byte) (p : AuthPrefix) (left : Nat) : Prop where
  recording : p.replay = false
  begins : p.offset = 0
  whole : p.bytes ++ p.conn.bytes = stream
  space : p.size + left ≤ AuthPrefix.capacity

theorem read_keeps {stream : List Byte} {p : AuthPrefix} {left : Nat}
    (keeps : Keeps stream p left) :
    Keeps stream (p.read left).2 (left - (p.read left).1.1.length) := by
  have short : (p.conn.read left).1.1.length ≤ left := conn_streams.short p.conn left
  have next : (p.conn.read left).1.1 ++ (p.conn.read left).2.bytes = p.conn.bytes :=
    conn_streams.next p.conn left
  have space := keeps.space
  have all : (p.conn.read left).1.1.take (AuthPrefix.capacity - p.size) =
      (p.conn.read left).1.1 := List.take_of_length_le (by omega)
  rcases p.read_cases left with ⟨replay, -⟩ | ⟨replay, -⟩ | ⟨-, done⟩
  · rw [keeps.recording] at replay
    cases replay
  · rw [keeps.recording] at replay
    cases replay
  · rw [done, all]
    refine ⟨keeps.recording, keeps.begins, ?_, ?_⟩
    · rw [List.append_assoc, next]
      exact keeps.whole
    · show (p.bytes ++ (p.conn.read left).1.1).length +
        (left - (p.conn.read left).1.1.length) ≤ AuthPrefix.capacity
      unfold AuthPrefix.size at space
      rw [List.length_append]
      omega

theorem readFull_keeps {stream : List Byte} {p : AuthPrefix} {left : Nat}
    (keeps : Keeps stream p left) :
    ∃ left', Keeps stream (authPrefix.readFull .eof .unexpectedEOF left p).2 left' := by
  obtain ⟨left', after⟩ := Reader.fill_invariant (R := authPrefix) (I := Keeps stream)
    (fun p left keeps => read_keeps keeps) (authPrefix.work p + 1) keeps
  refine ⟨left', ?_⟩
  unfold Reader.readFull
  split
  next got e p' filled =>
  rw [filled] at after
  split_ifs <;> exact after

theorem Keeps.rest_eq {stream : List Byte} {p : AuthPrefix} {left : Nat}
    (keeps : Keeps stream p left) : p.rest = p.conn.bytes :=
  AuthPrefix.rest_live (.inl keeps.recording)

/-- How much a prefix has kept is how much its connection has lost. -/
theorem Keeps.size_eq {stream : List Byte} {p : AuthPrefix} {left : Nat}
    (keeps : Keeps stream p left) : p.size + p.conn.bytes.length = stream.length := by
  rw [← keeps.whole, List.length_append]
  rfl

/-- Reading a message through the prefix: everything read is kept. -/
theorem readMessage_keeps (c : Conn) :
    ∃ left, Keeps c.bytes (readMessage authPrefix { conn := c }).2 left := by
  have initial : Keeps c.bytes { conn := c } Wire.Go.authHeaderSize :=
    ⟨rfl, rfl, rfl, Nat.le_add_right _ _⟩
  have spec := authPrefix_streams.readFull_spec .eof .unexpectedEOF Wire.Go.authHeaderSize
    { conn := c }
  obtain ⟨left, after⟩ := readFull_keeps initial
  unfold readMessage readHeader
  rcases headRead : authPrefix.readFull .eof .unexpectedEOF Wire.Go.authHeaderSize
    { conn := c } with ⟨_ | header, p⟩
  · rw [headRead] at after
    exact ⟨left, after⟩
  rw [headRead] at after spec
  replace after : Keeps c.bytes p left := after
  by_cases refused : header.headD 0 ≠ Wire.Go.auth ∨
      ((header.getD 1 0).toNat <<< 16 ||| (header.getD 2 0).toNat <<< 8 |||
        (header.getD 3 0).toNat) ≠ Wire.Go.authSize
  · simp only [if_pos refused]
    exact ⟨left, after⟩
  · simp only [if_neg refused]
    rw [not_or, not_not, not_not] at refused
    rw [refused.2]
    -- the header is all that has been read, so that the payload fits behind it
    have ready : Keeps c.bytes p Wire.Go.authSize := by
      refine ⟨after.recording, after.begins, after.whole, ?_⟩
      have four : p.rest = c.bytes.drop Wire.Go.authHeaderSize := spec.2.1
      have lengths := congrArg List.length (after.rest_eq.symm.trans four)
      rw [List.length_drop] at lengths
      have size := after.size_eq
      have long : Wire.Go.authHeaderSize ≤ c.bytes.length := by
        by_contra short
        have failed := spec.1
        rw [show (AuthPrefix.rest { conn := c }) = c.bytes from rfl, if_neg short] at failed
        split at failed <;> cases failed
      have full : AuthPrefix.capacity = Wire.Go.authHeaderSize + Wire.Go.authSize := rfl
      omega
    obtain ⟨left', kept⟩ := readFull_keeps ready
    split
    · next read =>
        rw [read] at kept
        exact ⟨left', kept⟩
    · next read =>
        rw [read] at kept
        exact ⟨left', kept⟩

/-! ## The website's handler -/

/-- What the handler reads from. -/
def front : Reader Front Byte Err where
  read
    | .plain c, room => let (result, c) := c.read room; (result, .plain c)
    | .replayed p, room => let (result, p) := p.read room; (result, .replayed p)
  work
    | .plain c => c.work
    | .replayed p => p.work

def Front.rest : Front → List Byte
  | .plain c => c.bytes
  | .replayed p => p.rest

def Front.ending : Front → Err
  | .plain c => c.ending
  | .replayed p => p.ending

theorem front_streams : front.Streams Front.rest Front.ending := by
  constructor <;> rintro (c | p)
  · exact conn_streams.next c
  · exact authPrefix_streams.next p
  · exact conn_streams.short c
  · exact authPrefix_streams.short p
  · exact conn_streams.ends c
  · exact authPrefix_streams.ends p
  · exact conn_streams.same c
  · exact authPrefix_streams.same p
  · exact conn_streams.steady c
  · exact authPrefix_streams.steady p
  · exact conn_streams.progress c
  · exact authPrefix_streams.progress p

section

variable {hmac : List Byte → List Byte → Vector Byte 32}

/-- The connection the handler is given has the client's stream, from its first byte. -/
theorem fallback_rest {cfg : ServerConfig} {h : Handshake} {c : Conn} {f : Front}
    {protocol : List Char} (called : handle hmac cfg h c = .fallback f protocol) :
    f.rest = c.bytes := by
  unfold handle at called
  split at called
  · cases called
  split at called
  · split at called <;> cases called
    rfl
  split at called
  · cases called
  next exporter _ =>
  split at called
  · obtain ⟨left, keeps⟩ := readMessage_keeps c
    rcases read : readMessage authPrefix { conn := c } with ⟨message, p⟩
    rw [read] at keeps
    simp only [read] at called
    split at called
    · cases called
    · unfold unauthenticated at called
      simp only at called
      split at called
      · cases called
      · split at called
        · cases called
        · cases called
          show (if true = true then p.bytes.drop p.offset else []) ++ p.conn.bytes = _
          rw [if_pos rfl, keeps.begins]
          exact keeps.whole
  · simp only at called
    split at called <;> cases called

/-! ## An authenticated client -/

variable (hmac) in
/-- The bytes of a valid authentication frame of a connection. -/
def AuthFrame (key exporter frame : List Byte) : Prop :=
  frame.take 4 = [1, 0, 0, 49] ∧ Wire.Go.verifyAuth hmac key exporter (frame.drop 4) = true

theorem AuthFrame.length {key exporter frame : List Byte}
    (valid : AuthFrame hmac key exporter frame) : frame.length = 53 := by
  have verified := valid.2
  simp only [Wire.Go.verifyAuth, Bool.and_eq_true, beq_iff_eq, List.length_drop,
    Wire.Go.authSize] at verified
  omega

/-- With a key and an exporter of the right length, these are the frames a client sends. -/
theorem authFrame_iff {key exporter frame : List Byte} (keySize : key.length = 32)
    (exporterSize : exporter.length = 32) :
    AuthFrame hmac key exporter frame ↔
      ∃ nonce, frame = Wire.authFrame hmac key exporter nonce := by
  constructor
  · intro valid
    have size : (frame.drop 4).length = 49 := by
      rw [List.length_drop, valid.length]
    obtain ⟨nonce, same⟩ :=
      (Wire.Go.verifyAuth_iff keySize exporterSize size).mp valid.2
    refine ⟨nonce, ?_⟩
    rw [← same, ← valid.1, List.take_append_drop]
  · rintro ⟨nonce, rfl⟩
    have header : (Wire.authFrame hmac key exporter nonce).take 4 = [1, 0, 0, 49] := rfl
    have size : ((Wire.authFrame hmac key exporter nonce).drop 4).length = 49 := by
      rw [List.length_drop, Wire.authFrame_length]
    refine ⟨header, (Wire.Go.verifyAuth_iff keySize exporterSize size).mpr ⟨nonce, ?_⟩⟩
    rw [← header, List.take_append_drop]

/-- The right header announces an authentication payload. -/
theorem readHeader_frame {σ : Type} {R : Reader σ Byte Err} {rest : σ → List Byte}
    {ending : σ → Err} (law : R.Streams rest ending) {s : σ}
    (header : (rest s).take 4 = [1, 0, 0, 49]) (long : 4 ≤ (rest s).length) :
    (readHeader R s).1 = .ok (1, 49) ∧ rest (readHeader R s).2 = (rest s).drop 4 := by
  obtain ⟨head, after, -⟩ := law.readFull_spec .eof .unexpectedEOF Wire.Go.authHeaderSize s
  have enough : Wire.Go.authHeaderSize ≤ (rest s).length := long
  rw [if_pos enough] at head
  unfold readHeader
  rcases read : R.readFull .eof .unexpectedEOF Wire.Go.authHeaderSize s with ⟨result, s'⟩
  rw [read] at head after
  obtain rfl : result = .ok [1, 0, 0, 49] := head.trans (congrArg _ header)
  exact ⟨rfl, after⟩

/-- A frame with the right header is read as it was sent. -/
theorem readMessage_frame {σ : Type} {R : Reader σ Byte Err} {rest : σ → List Byte}
    {ending : σ → Err} (law : R.Streams rest ending) {s : σ}
    (header : (rest s).take 4 = [1, 0, 0, 49]) (long : 53 ≤ (rest s).length) :
    (readMessage R s).1 = .ok (1, ((rest s).drop 4).take 49) ∧
      rest (readMessage R s).2 = (rest s).drop 53 := by
  obtain ⟨head, after⟩ := readHeader_frame law header (by omega)
  unfold readMessage
  rcases headRead : readHeader R s with ⟨result, s'⟩
  rw [headRead] at head after
  obtain rfl : result = .ok (1, 49) := head
  replace after : rest s' = (rest s).drop 4 := after
  obtain ⟨body, left, -⟩ := law.readFull_spec .eof .unexpectedEOF 49 s'
  rw [after, List.length_drop, if_pos (by omega)] at body
  rw [after, List.drop_drop] at left
  simp only
  rcases bodyRead : R.readFull .eof .unexpectedEOF 49 s' with ⟨result, s''⟩
  rw [bodyRead] at body left
  obtain rfl : result = .ok (((rest s).drop 4).take 49) := body
  exact ⟨rfl, left⟩

/-- A client with a valid frame gets its session, unless it is the website's. -/
theorem authenticated_session {cfg : ServerConfig} {h : Handshake} {c : Conn}
    {exporter : List Byte} (shaken : h.failed = none) (plain : h.protocol ≠ "h2".toList)
    (exported : h.exporter = .ok exporter)
    (valid : AuthFrame hmac cfg.key exporter (c.bytes.take 53)) :
    ∃ c', handle hmac cfg h c = .session c' ∧ c'.bytes = c.bytes.drop 53 := by
  have size := valid.length
  have long : 53 ≤ c.bytes.length := by
    rw [List.length_take] at size
    omega
  have header : c.bytes.take 4 = [1, 0, 0, 49] := by
    have first := valid.1
    rwa [List.take_take] at first
  have accepted : refusal hmac cfg.key exporter
      (.ok (1, (c.bytes.drop 4).take 49)) = none := by
    have verified := valid.2
    rw [List.drop_take] at verified
    unfold refusal
    simp only
    rw [if_neg]
    rintro (other | bad)
    · exact other rfl
    · rw [verified] at bad
      cases bad
  unfold handle
  simp only [shaken, exported]
  rw [if_neg (fun both => plain both.2)]
  split
  · obtain ⟨message, after⟩ := readMessage_frame authPrefix_streams
      (s := ({ conn := c } : AuthPrefix)) header long
    obtain ⟨left, keeps⟩ := readMessage_keeps c
    rw [keeps.rest_eq] at after
    rw [message]
    replace accepted : refusal hmac cfg.key exporter
      (.ok (1, ((AuthPrefix.rest { conn := c }).drop 4).take 49)) = none := accepted
    simp only [accepted]
    exact ⟨_, rfl, after⟩
  · obtain ⟨message, after⟩ := readMessage_frame conn_streams header long
    rw [message]
    simp only [accepted]
    exact ⟨_, rfl, after⟩

/--
Whatever connection the website's handler is given, its reads return the
client's stream from the first byte, in order, with an error only behind the
last, and enough reads return all of it.  A client whose stream begins with a
valid authentication frame is never handed to the website, unless the TLS
handshake has chosen HTTP/2.
-/
theorem fallback_replays (cfg : ServerConfig) (h : Handshake) (c : Conn) :
    (∀ f protocol, handle hmac cfg h c = .fallback f protocol → ∀ rooms,
      Reader.items (front.reads rooms f).1 ++ Front.rest (front.reads rooms f).2 = c.bytes ∧
      (∀ result ∈ (front.reads rooms f).1, ∀ e, result.2 = some e →
        Reader.items (front.reads rooms f).1 = c.bytes) ∧
      ((∀ room ∈ rooms, 0 < room) → front.work f + c.bytes.length < rooms.length →
        Reader.items (front.reads rooms f).1 = c.bytes)) ∧
    (h.protocol ≠ "h2".toList → ∀ exporter, h.exporter = .ok exporter →
      AuthFrame hmac cfg.key exporter (c.bytes.take 53) →
      ∀ f protocol, handle hmac cfg h c ≠ .fallback f protocol) := by
  constructor
  · intro f protocol called rooms
    have stream := fallback_rest called
    obtain ⟨whole, errors⟩ := front_streams.reads_spec rooms f
    rw [stream] at whole errors
    refine ⟨whole, fun result member e failed => (errors result member e failed).2, ?_⟩
    intro open_ enough
    rw [← stream] at enough ⊢
    exact (front_streams.reads_end open_ enough).1
  · intro plain exporter exported valid f protocol called
    cases shaken : h.failed with
    | none =>
        obtain ⟨c', session, -⟩ := authenticated_session shaken plain exported valid
        rw [session] at called
        cases called
    | some e =>
        unfold handle at called
        simp only [shaken] at called
        cases called

/-- A request of a browser reaches the website as it was sent. -/
theorem fallback_replays_request : ∃ f protocol,
    handle (fun _ _ => Vector.replicate 32 0) ⟨List.replicate 32 7, true⟩
        ⟨none, "http/1.1".toList, .ok (List.replicate 32 9), none, none⟩
        ⟨[71, 69, 84, 32, 47], .eof, [(2, false), (0, false), (9, true)]⟩ =
      .fallback f protocol ∧
    Reader.items (front.reads [3, 1, 1, 4, 4, 4, 4, 4, 4, 4, 4] f).1 =
      [71, 69, 84, 32, 47] := by
  refine ⟨_, _, rfl, ?_⟩
  have all := @fallback_replays (fun _ _ => Vector.replicate 32 0)
    ⟨List.replicate 32 7, true⟩
    ⟨none, "http/1.1".toList, .ok (List.replicate 32 9), none, none⟩
    ⟨[71, 69, 84, 32, 47], .eof, [(2, false), (0, false), (9, true)]⟩
  exact ((all.1 _ _ rfl [3, 1, 1, 4, 4, 4, 4, 4, 4, 4, 4]).2.2) (by decide) (by decide)

/-- With HTTP/2 a valid frame reaches the website as well. -/
theorem website_first :
    (∀ hmac : List Byte → List Byte → Vector Byte 32,
      AuthFrame hmac (List.replicate 32 7) (List.replicate 32 9)
        ((Wire.authFrame hmac (List.replicate 32 7) (List.replicate 32 9)
          (Vector.replicate 16 5)).take 53)) ∧
    ∀ hmac : List Byte → List Byte → Vector Byte 32,
      handle hmac ⟨List.replicate 32 7, true⟩
          ⟨none, "h2".toList, .ok (List.replicate 32 9), none, none⟩
          ⟨Wire.authFrame hmac (List.replicate 32 7) (List.replicate 32 9)
            (Vector.replicate 16 5), .eof, []⟩ =
        .fallback (.plain ⟨Wire.authFrame hmac (List.replicate 32 7) (List.replicate 32 9)
          (Vector.replicate 16 5), .eof, []⟩) "h2".toList := by
  constructor
  · intro hmac
    have size := Wire.authFrame_length hmac (List.replicate 32 7) (List.replicate 32 9)
      (Vector.replicate 16 5)
    rw [List.take_of_length_le (Nat.le_of_eq size)]
    exact (authFrame_iff (List.length_replicate ..) (List.length_replicate ..)).mpr
      ⟨_, rfl⟩
  · exact fun hmac => rfl

end

end Veil.Core
