import Veil.Mux.Loops

/-!
# What always holds of a stream

Invariants of single tracks under every move, that is in every run of a session
with any application and any peer.  A stream's flags agree with the calls that
set them, its queue holds at most one unfinished block, and the frames sent for
it fit what its flags say.
-/

namespace Veil.Mux

open Veil.Lib

namespace Stream

/-! ## Updates of a stream -/

/-- Reporting the result of a request, when there is one to report. -/
theorem finishRequest_cases (st : Stream) (e : Option Err) :
    st.finishRequest e = st ∨
    ∃ r, st.request = some r ∧ r.finished = false ∧
      st.finishRequest e = { st with
        request := some { r with finished := true }
        writeDone := st.writeDone ++ [(r.off, e)] } := by
  rcases st with ⟨_, _, _, _, _, _, _, _, _, _, _, _, _, _, _, request, _⟩
  cases request with
  | none => exact .inl (by simp [finishRequest])
  | some r =>
      rcases r with ⟨p, off, finished⟩
      cases finished with
      | false => exact .inr ⟨_, rfl, rfl, by simp [finishRequest, Option.filter]⟩
      | true => exact .inl (by simp [finishRequest, Option.filter])

theorem stop_eq (st : Stream) (e : Err) :
    st.stop e = { st.finishRequest (some e) with err := st.err.or (some e) } := rfl

theorem shut_eq (st : Stream) (e : Err) :
    st.shut e = { st.finishRequest (some e) with
      closed := true, err := st.err.or (some e), queue := [], head := 0 } := rfl

theorem or_ne_eof {old : Option Err} {e : Err} (kept : old ≠ some .eof) (plain : e ≠ .eof) :
    old.or (some e) ≠ some .eof := by
  cases old with
  | none => simpa using plain
  | some cause => exact kept

/-- Taking a whole block leaves the blocks behind it. -/
theorem unread_pop {st : Stream} {c : Chunk} {rest : List Chunk} (bytes : List Byte)
    (front : st.unread = c :: rest) : (st.pop bytes).unread = rest := by
  have tail : st.queue.drop (st.head + 1) = rest := by
    rw [← List.tail_drop]
    exact congrArg List.tail front
  simp only [pop]
  split_ifs with last far
  · rw [← tail, last, List.drop_length]
    rfl
  · exact tail
  · exact tail

/-- Taking a block changes the queue, the refund and what has been delivered. -/
theorem pop_eq (st : Stream) (bytes : List Byte) : ∃ queue head, st.pop bytes = { st with
    refund := st.refund + 1, delivered := st.delivered ++ bytes
    queue := queue, head := head } := by
  simp only [pop]
  split_ifs
  · exact ⟨_, _, rfl⟩
  · exact ⟨_, _, rfl⟩
  · exact ⟨_, _, rfl⟩

section Pop

variable (st : Stream) (bytes : List Byte)

@[simp]
theorem pop_delivered : (st.pop bytes).delivered = st.delivered ++ bytes := by
  rcases st.pop_eq bytes with ⟨_, _, same⟩
  rw [same]

@[simp]
theorem pop_refund : (st.pop bytes).refund = st.refund + 1 := by
  rcases st.pop_eq bytes with ⟨_, _, same⟩
  rw [same]

@[simp]
theorem pop_closed : (st.pop bytes).closed = st.closed := by
  rcases st.pop_eq bytes with ⟨_, _, same⟩
  rw [same]

@[simp]
theorem pop_remoteFIN : (st.pop bytes).remoteFIN = st.remoteFIN := by
  rcases st.pop_eq bytes with ⟨_, _, same⟩
  rw [same]

@[simp]
theorem pop_err : (st.pop bytes).err = st.err := by
  rcases st.pop_eq bytes with ⟨_, _, same⟩
  rw [same]

end Pop

theorem head_pop (st : Stream) (bytes : List Byte)
    (inside : st.head < st.queue.length) :
    (st.pop bytes).head ≤ (st.pop bytes).queue.length := by
  simp only [pop]
  split_ifs
  · simp
  · simp
  · simp only
    omega

theorem unread_advance {st : Stream} {c : Chunk} {rest : List Chunk} (bytes : List Byte)
    (front : st.unread = c :: rest) :
    (st.advance c bytes).unread =
      { c with start := c.start + bytes.length } :: rest := by
  have inside : st.head < st.queue.length := by
    by_contra beyond
    rw [unread, List.drop_eq_nil_of_le (not_lt.mp beyond)] at front
    cases front
  have tail : st.queue.drop (st.head + 1) = rest := by
    rw [← List.tail_drop]
    exact congrArg List.tail front
  simp only [unread, advance]
  rw [List.drop_eq_getElem_cons (by simpa using inside), List.getElem_set_self,
    List.drop_set_of_lt (by omega), tail]

/-- Bytes are published in the last unread block. -/
theorem unread_publish {st : Stream} {before : List Chunk} {c : Chunk}
    (front : st.unread = before ++ [c]) (bytes : List Byte) (complete : Bool) :
    (st.publish bytes complete).unread =
      before ++ [{ c with b := c.b ++ bytes, complete := complete }] := by
  have size : st.queue.length = st.head + before.length + 1 := by
    have counted := congrArg List.length front
    simp only [unread, List.length_drop, List.length_append, List.length_singleton] at counted
    omega
  have last : st.queue.length - 1 - st.head = before.length := by omega
  rw [unread] at front
  simp only [unread, publish]
  rw [List.drop_modify_of_ge _ _ _ _ (by omega), front, last,
    List.modify_eq_take_cons_drop (by simp)]
  simp

/-! ## Flags and calls -/

/-- A stream's flags agree with the calls that set them. -/
structure Ok (server : Bool) (st : Stream) : Prop where
  pending : st.request.isSome = true ↔ st.call = .write
  offset : ∀ r, st.request = some r → r.off ≤ r.p.length
  unreported : ∀ r, st.request = some r → r.finished = false → st.writeDone = []
  reported : ∀ r, st.request = some r → r.finished = true →
    ∃ e, st.writeDone = [(r.off, e)]
  unasked : st.request = none → st.writeDone = []
  writing : st.call = .write → st.ready = true ∧ st.localFIN = false
  marked : st.localFIN = true ↔ st.closedAt = some st.wrote
  unmarked : st.localFIN = false → st.closedAt = none
  sent : st.localFIN = true → st.ready = true
  ended : st.remoteFIN = true → st.ready = true
  complete : st.applicationDone = true →
    server = true ∧ st.localFIN = true ∧ st.remoteFIN = true
  confirmed : st.peerDone = true →
    server = false ∧ st.localFIN = true ∧ st.remoteFIN = true
  deferred : st.pendingFIN = true →
    server = true ∧ st.localFIN = true ∧ st.remoteFIN = true ∧ st.applicationDone = false
  plain : st.err ≠ some .eof
  shut : st.closed = true → st.err ≠ none ∧ st.queue = []
  inside : st.head ≤ st.queue.length

namespace Ok

variable {server : Bool} {st : Stream}

theorem fresh (metadata : List Byte) (refundAt : Nat) :
    (Stream.fresh metadata refundAt).Ok server := by
  constructor <;> simp [Stream.fresh]

theorem notify (ok : st.Ok server) (e : Option Err) (controls : List Control) :
    (st.notifyAll e controls).Ok server :=
  { ok with }

theorem finishRequest (ok : st.Ok server) (e : Option Err) :
    (st.finishRequest e).Ok server := by
  rcases st.finishRequest_cases e with same | ⟨r, request, pending, same⟩
  · rwa [same]
  · rw [same]
    have waiting := ok.pending.mp (by simp [request])
    have unreported := ok.unreported r request pending
    refine { ok with
      pending := ?_, offset := ?_, unreported := ?_, reported := ?_, unasked := ?_ }
    · simp [waiting]
    · intro r' found
      cases found
      exact ok.offset r request
    · intro r' found
      cases found
      simp
    · intro r' found _
      cases found
      exact ⟨e, by simp [unreported]⟩
    · simp

theorem stop (ok : st.Ok server) {e : Err} (plain : e ≠ .eof) : (st.stop e).Ok server := by
  have finished := ok.finishRequest (some e)
  rw [stop_eq]
  refine { finished with plain := ?_, shut := ?_ }
  · exact or_ne_eof ok.plain plain
  · exact fun closed => ⟨by cases st.err <;> simp, (ok.shut closed).2⟩

theorem shutDown (ok : st.Ok server) {e : Err} (plain : e ≠ .eof) :
    (st.shut e).Ok server := by
  have finished := ok.finishRequest (some e)
  rw [shut_eq]
  refine { finished with plain := ?_, shut := ?_, inside := ?_ }
  · exact or_ne_eof ok.plain plain
  · exact fun _ => ⟨by cases st.err <;> simp, rfl⟩
  · simp

/-- No call is inside `Write`, so there is no request and no result. -/
theorem idle (ok : st.Ok server) (free : st.call ≠ .write) :
    st.request = none ∧ st.writeDone = [] := by
  have none_ : st.request = none := by
    cases request : st.request with
    | none => rfl
    | some r => exact (free (ok.pending.mp (by simp [request]))).elim
  exact ⟨none_, ok.unasked none_⟩

/-- The count a `Write` returns is what the writer has consumed. -/
theorem result (ok : st.Ok server) {r : WriteRequest} (request : st.request = some r)
    {n : Nat} {e : Option Err} {rest : List (Nat × Option Err)}
    (reported : st.writeDone = (n, e) :: rest) : n = r.off ∧ rest = [] := by
  cases finished : r.finished with
  | false =>
      rw [ok.unreported r request finished] at reported
      cases reported
  | true =>
      rcases ok.reported r request finished with ⟨e', only⟩
      rw [only] at reported
      cases reported
      exact ⟨rfl, rfl⟩

theorem publish (ok : st.Ok server) (bytes : List Byte) (complete : Bool) :
    (st.publish bytes complete).Ok server := by
  refine { ok with shut := ?_, inside := ?_ }
  · intro closed
    have empty := (ok.shut closed).2
    exact ⟨(ok.shut closed).1, by simp [Stream.publish, empty]⟩
  · simpa [Stream.publish] using ok.inside

/-- A stream with something to read is open, so its queue may change. -/
theorem unclosed_of_unread (ok : st.Ok server) {c : Chunk} {rest : List Chunk}
    (front : st.unread = c :: rest) : st.closed = false ∧ st.head < st.queue.length := by
  constructor
  · by_contra closed
    have empty := (ok.shut (by simpa using closed)).2
    simp [unread, empty] at front
  · by_contra beyond
    rw [unread, List.drop_eq_nil_of_le (not_lt.mp beyond)] at front
    cases front

theorem advance (ok : st.Ok server) {c : Chunk} {rest : List Chunk}
    (front : st.unread = c :: rest) (bytes : List Byte) :
    (st.advance c bytes).Ok server := by
  have unclosed := (ok.unclosed_of_unread front).1
  refine { ok with shut := ?_, inside := ?_ }
  · exact fun closed => absurd (unclosed.symm.trans closed) (by simp)
  · simpa [Stream.advance] using ok.inside

theorem pop (ok : st.Ok server) {c : Chunk} {rest : List Chunk}
    (front : st.unread = c :: rest) (bytes : List Byte) : (st.pop bytes).Ok server := by
  rcases ok.unclosed_of_unread front with ⟨unclosed, inside⟩
  have bound := st.head_pop bytes inside
  rcases st.pop_eq bytes with ⟨queue, head, same⟩
  rw [same] at bound ⊢
  refine { ok with shut := ?_, inside := bound }
  exact fun closed => absurd (unclosed.symm.trans closed) (by simp)

end Ok

end Stream

namespace Track

/-- The flags of the track's stream agree with the calls that set them. -/
def FlagsOk (t : Track) : Prop := ∀ st, t.st = some st → st.Ok t.server

theorem flagsOk_move {event : Event} {t t' : Track} (move : Move event t t')
    (held : t.FlagsOk) : t'.FlagsOk := by
  intro after found
  cases move with
  | fail e alive ended here =>
      cases found
      have ok := held _ here
      refine Stream.Ok.notify ?_ _ _
      split_ifs
      · refine ok.stop ?_
        unfold Session.streamError
        split_ifs with ended
        · simp
        · exact ended
      · exact ok
  | report e here =>
      cases found
      have ok := held _ here
      refine Stream.Ok.notify ?_ _ _
      split_ifs
      · exact ok.finishRequest e
      · exact ok
  | «open» | openFull | arrive =>
      cases found
      exact .fresh _ _
  | failBare | reportBare | halt | pass | sweep | refuse | control | ignore | checkedDead | dropChunk |
    publishDropped | completeDropped | cutDropped | emitControl => exact held after found
  | failed _ _ e _ _ here _ _ _ plain =>
      cases found
      exact (held _ here).shutDown plain
  | reset _ _ _ _ here | close here | closeQuiet here | closeFull here =>
      cases found
      exact (held _ here).shutDown (by simp)
  | publish _ _ here | complete _ _ here | cut _ _ here =>
      cases found
      exact (held _ here).publish _ _
  | advance _ here front =>
      cases found
      exact (held _ here).advance front _
  | pop here front =>
      cases found
      exact (held _ here).pop front _
  | grant _ here | merge _ here | checked _ _ _ here =>
      cases found
      exact { held _ here with }
  | keepChunk _ _ here unclosed =>
      cases found
      have ok := held _ here
      refine { ok with shut := ?_, inside := ?_ }
      · exact fun closed => absurd (unclosed.symm.trans closed) (by simp)
      · have inside := ok.inside
        simp only [List.length_append]
        omega
  | write p here free unfailed unclosed unended opened =>
      cases found
      have ok := held _ here
      have idle := ok.idle (by simp [free])
      refine { ok with
        pending := by simp, offset := ?_, unreported := ?_, reported := ?_
        unasked := by simp, writing := fun _ => ⟨opened, unended⟩ }
      · rintro r ⟨⟩
        exact Nat.zero_le _
      · exact fun _ _ _ => idle.2
      · rintro r ⟨⟩ finished
        cases finished
  | opened _ _ _ _ here | fin _ _ _ _ here | finished _ _ _ _ here
  | credit _ _ _ _ here | respond _ here | respondFull _ here | respondOver _ here
  | controlReturn here | finReturn here | giveUp here | abandon here
  | writeReturn here | closeWrite here
  | closeWriteLater here | closeWriteFull here | closeWriteOver here
  | finish here | finishFull _ here | emitData _ _ _ here =>
      cases found
      have ok := held _ here
      rcases ok with ⟨pending, offset, unreported, reported, unasked, writing, marked,
        unmarked, sent, ended, complete, confirmed, deferred, plain, shut, inside⟩
      constructor <;> first | assumption | grind -ring -linarith

end Track

attribute [grind =] Stream.stop Stream.shut Stream.finishRequest Stream.publish Stream.advance
  Stream.pop Stream.granted Stream.fresh Stream.notifyAll

/-- The read loop will drop the payload it is reading, or ignore the frame. -/
@[grind =]
def Progress.missed : Progress → Bool
  | .control live => !live
  | .checked live => !live
  | .receiving _ discard => discard
  | .stuck _ discard => discard
  | .away => false

/-- The read loop is inside a DATA frame that it has counted for the stream. -/
@[grind =]
def Progress.taking : Progress → Bool
  | .checked live => live
  | .receiving _ discard => !discard
  | .stuck _ discard => !discard
  | _ => false

namespace Track

/-- Where a track stands: in the map, in the read loop and in its life. -/
structure Placed (t : Track) : Prop where
  new : t.above = true → t.st = none ∧ t.listed = false ∧ t.queue = [] ∧ t.out = [] ∧
    t.inn = [] ∧ t.progress = .away
  listed : t.listed = true → ∃ st, t.st = some st ∧ st.closed = false
  unlisted : ∀ st, t.st = some st → t.listed = false →
    st.closed = true ∨ st.applicationDone = true
  missed : t.progress.missed = true → ∀ st, t.st = some st →
    ¬ (t.listed = true ∧ st.err = none)
  taking : t.progress.taking = true →
    ∃ st, t.st = some st ∧ st.ready = true ∧ st.remoteFIN = false
  holding : ∀ got, t.progress = .receiving got false →
    ∃ st, t.st = some st ∧ st.closed = false
  
@[grind →]
theorem taking_of_discarded {progress : Progress}
    (taking : (discarded progress).taking = true) : progress.taking = true := by
  cases progress <;> first | exact taking | cases taking

@[grind →]
theorem discarded_ne {progress : Progress} {got : List Byte}
    (same : discarded progress = .receiving got false) : False := by
  cases progress <;> cases same

theorem placed_move {event : Event} {t t' : Track} (move : Move event t t')
    (held : t.Placed) : t'.Placed := by
  rcases held with ⟨new, listed, unlisted, missed, taking, holding⟩
  cases move <;> constructor <;> first | assumption | grind -ring -linarith [live, discarded]
/-! ## Blocks -/

/-- The last unread block is the one being received, and only it is unfinished. -/
def Tail (progress : Progress) (unread : List Chunk) : Prop :=
  match progress with
  | .receiving got false => ∃ before c, unread = before ++ [c] ∧ c.b = got ∧
      c.complete = false ∧ ∀ d ∈ before, d.complete = true
  | _ => ∀ c ∈ unread, c.complete = true

/-- The blocks of a stream: read positions inside, no empty finished block, one tail. -/
structure BlocksOk (progress : Progress) (unread : List Chunk) : Prop where
  inside : ∀ c ∈ unread, c.start ≤ c.b.length
  nonempty : ∀ c ∈ unread, c.complete = true →
    c.start < c.b.length ∨ ∃ got, progress = .stuck got false
  tail : Tail progress unread

def ChunksOk (t : Track) : Prop := ∀ st, t.st = some st → BlocksOk t.progress st.unread

theorem BlocksOk.empty {progress : Progress} (other : ∀ got, progress ≠ .receiving got false) :
    BlocksOk progress [] := by
  refine ⟨by simp, by simp, ?_⟩
  unfold Tail
  split
  · next got => exact (other got rfl).elim
  · simp

/-- The blocks stay as they are while the read loop is not receiving one. -/
theorem BlocksOk.elsewhere {progress progress' : Progress} {unread : List Chunk}
    (ok : BlocksOk progress unread)
    (before : ∀ got, progress ≠ .receiving got false)
    (after : ∀ got, progress' ≠ .receiving got false)
    (free : ∀ got, progress ≠ .stuck got false) : BlocksOk progress' unread := by
  refine ⟨ok.inside, fun c member complete => ?_, ?_⟩
  · rcases ok.nonempty c member complete with fine | ⟨got, stuck⟩
    · exact .inl fine
    · exact (free got stuck).elim
  · have tail := ok.tail
    unfold Tail at tail ⊢
    split at tail
    · next got => exact (before got rfl).elim
    · exact tail

/-- A new block at the end is the one being received. -/
theorem BlocksOk.append {live : Bool} {unread : List Chunk}
    (ok : BlocksOk (.checked live) unread) :
    BlocksOk (.receiving [] false) (unread ++ [⟨[], 0, false⟩]) := by
  refine ⟨?_, ?_, unread, _, rfl, rfl, rfl, ok.tail⟩
  · intro c member
    rcases List.mem_append.mp member with old | new
    · exact ok.inside c old
    · simp [List.mem_singleton.mp new]
  · intro c member complete
    rcases List.mem_append.mp member with old | new
    · exact .inl ((ok.nonempty c old complete).resolve_right (by simp))
    · simp [List.mem_singleton.mp new] at complete

/-- The block being received, and the finished ones before it. -/
theorem BlocksOk.last {got : List Byte} {unread : List Chunk}
    (ok : BlocksOk (.receiving got false) unread) :
    ∃ before c, unread = before ++ [c] ∧ c.b = got ∧ c.complete = false ∧
      c.start ≤ got.length ∧ (∀ d ∈ before, d.complete = true ∧ d.start < d.b.length) := by
  rcases ok.tail with ⟨before, c, rfl, rfl, unfinished, complete⟩
  refine ⟨before, c, rfl, rfl, unfinished, ok.inside c (by simp), fun d member => ?_⟩
  have whole := complete d member
  exact ⟨whole, (ok.nonempty d (by simp [member]) whole).resolve_right (by simp)⟩

/-- Bytes arrive in the block being received. -/
theorem BlocksOk.grow {got : List Byte} {before : List Chunk} {c : Chunk}
    (bytes : c.b = got) (start : c.start ≤ got.length)
    (complete : ∀ d ∈ before, d.complete = true ∧ d.start < d.b.length)
    (bs : List Byte) (progress : Progress) (finished : Bool)
    (fits : finished = true → bs ≠ [] ∨ ∃ got, progress = .stuck got false)
    (tail : Tail progress (before ++ [{ c with b := c.b ++ bs, complete := finished }])) :
    BlocksOk progress (before ++ [{ c with b := c.b ++ bs, complete := finished }]) := by
  subst bytes
  refine ⟨?_, ?_, tail⟩
  · intro d member
    rcases List.mem_append.mp member with old | new
    · exact (complete d old).2.le
    · rw [List.mem_singleton.mp new]
      simp only [List.length_append]
      omega
  · intro d member whole
    rcases List.mem_append.mp member with old | new
    · exact .inl (complete d old).2
    · rw [List.mem_singleton.mp new] at whole ⊢
      rcases fits whole with some_ | stuck
      · have := List.length_pos_of_ne_nil some_
        left
        simp only [List.length_append]
        omega
      · exact .inr stuck

/-- Reading moves the position of the first block. -/
theorem BlocksOk.advance {progress : Progress} {c : Chunk} {rest : List Chunk}
    (ok : BlocksOk progress (c :: rest)) {bytes : List Byte} (copied : bytes <+: c.rest)
    (unfinished : c.start + bytes.length ≠ c.b.length ∨ c.complete = false) :
    BlocksOk progress ({ c with start := c.start + bytes.length } :: rest) := by
  have inside : c.start + bytes.length ≤ c.b.length := by
    have short := copied.length_le
    have start := ok.inside c (by simp)
    simp only [Chunk.rest, List.length_drop] at short
    omega
  refine ⟨?_, ?_, ?_⟩
  · intro d member
    rcases List.mem_cons.mp member with rfl | old
    · exact inside
    · exact ok.inside d (by simp [old])
  · intro d member whole
    rcases List.mem_cons.mp member with rfl | old
    · rcases unfinished with short | part
      · exact .inl (lt_of_le_of_ne inside short)
      · cases whole.symm.trans part
    · exact ok.nonempty d (by simp [old]) whole
  · have tail := ok.tail
    unfold Tail at tail ⊢
    split at tail
    · rcases tail with ⟨before, last, split_, bytes, part, complete⟩
      cases before with
      | nil =>
          cases split_
          exact ⟨[], _, rfl, bytes, part, by simp⟩
      | cons first before =>
          cases split_
          refine ⟨_ :: before, last, rfl, bytes, part, ?_⟩
          intro d member
          rcases List.mem_cons.mp member with rfl | old
          · exact complete c (by simp)
          · exact complete d (by simp [old])
    · intro d member
      rcases List.mem_cons.mp member with rfl | old
      · exact tail c (by simp)
      · exact tail d (by simp [old])

/-- A finished block leaves the queue. -/
theorem BlocksOk.pop {progress : Progress} {c : Chunk} {rest : List Chunk}
    (ok : BlocksOk progress (c :: rest)) (complete : c.complete = true) :
    BlocksOk progress rest := by
  refine ⟨fun d member => ok.inside d (by simp [member]),
    fun d member => ok.nonempty d (by simp [member]), ?_⟩
  have tail := ok.tail
  unfold Tail at tail ⊢
  split at tail
  · rcases tail with ⟨before, last, split_, bytes, part, others⟩
    cases before with
    | nil =>
        cases split_
        cases part.symm.trans complete
    | cons first before =>
        cases split_
        exact ⟨before, last, rfl, bytes, part, fun d member => others d (by simp [member])⟩
  · exact fun d member => tail d (by simp [member])

theorem chunksOk_move {event : Event} {t t' : Track} (move : Move event t t')
    (flags : t.FlagsOk) (placed : t.Placed) (held : t.ChunksOk) : t'.ChunksOk := by
  intro after found
  cases move with
  | failBare _ _ _ missing | reportBare missing => cases missing.symm.trans found
  | fail _ _ _ here =>
      cases found
      have blocks := held _ here
      split_ifs <;> exact blocks
  | report _ here =>
      cases found
      have blocks := held _ here
      split_ifs <;> exact blocks
  | «open» _ _ _ new | openFull _ _ _ new | arrive _ _ _ new =>
      cases found
      exact .empty (by simp [(placed.new new).2.2.2.2.2])
  | pass | sweep | refuse | emitControl => exact held after found
  | halt outside =>
      rcases outside with away | ⟨live, at_⟩
      · exact (held after found).elsewhere (by simp [away]) (by simp) (by simp [away])
      · exact (held after found).elsewhere (by simp [at_]) (by simp) (by simp [at_])
  | control away | checkedDead away =>
      exact (held after found).elsewhere (by simp [away]) (by simp) (by simp [away])
  | ignore _ at_ | dropChunk at_ =>
      exact (held after found).elsewhere (by simp [at_]) (by simp) (by simp [at_])
  | opened _ _ at_ _ here | fin _ _ at_ _ here | finished _ _ at_ _ here
  | credit _ _ at_ _ here =>
      cases found
      exact (held _ here).elsewhere (by simp [at_]) (by simp) (by simp [at_])
  | failed | reset =>
      cases found
      exact .empty (by simp)
  | checked away _ _ here =>
      cases found
      exact (held _ here).elsewhere (by simp [away]) (by simp) (by simp [away])
  | close | closeQuiet | closeFull =>
      cases found
      refine .empty fun got same => ?_
      exact discarded_ne same
  | respond _ here | respondFull _ here | respondOver _ here | controlReturn here
  | finReturn here | giveUp here | abandon here | write _ here | writeReturn here
  | closeWrite here | closeWriteLater here | closeWriteFull here | closeWriteOver here
  | finish here | finishFull _ here | emitData _ _ _ here | grant _ here | merge _ here =>
      cases found
      have blocks := held _ here
      exact blocks
  | publishDropped bs at_ dropped | completeDropped bs at_ dropped | cutDropped bs at_ dropped =>
      rcases dropped with rfl | missing
      · exact (held after found).elsewhere (by simp [at_]) (by simp) (by simp [at_])
      · cases missing.symm.trans found
  | keepChunk at_ _ here _ =>
      cases found
      have blocks := held _ here
      rw [at_] at blocks
      have appended := blocks.append
      simp only [Stream.unread] at appended ⊢
      rwa [List.drop_append_of_le_length (flags _ here).inside]
  | publish bs at_ here =>
      cases found
      have blocks := held _ here
      rw [at_] at blocks
      rcases blocks.last with ⟨before, c, front, bytes, part, start, complete⟩
      rw [Stream.unread_publish front]
      exact .grow bytes start complete bs _ false (by simp)
        ⟨before, _, rfl, by rw [bytes], rfl, fun d member => (complete d member).1⟩
  | complete bs at_ here more =>
      cases found
      have blocks := held _ here
      rw [at_] at blocks
      rcases blocks.last with ⟨before, c, front, bytes, part, start, complete⟩
      rw [Stream.unread_publish front]
      refine .grow bytes start complete bs _ true (fun _ => .inl more) ?_
      intro d member
      rcases List.mem_append.mp member with old | new
      · exact (complete d old).1
      · rw [List.mem_singleton.mp new]
  | cut bs at_ here =>
      cases found
      have blocks := held _ here
      rw [at_] at blocks
      rcases blocks.last with ⟨before, c, front, bytes, part, start, complete⟩
      rw [Stream.unread_publish front]
      refine .grow bytes start complete bs _ true (fun _ => .inr ⟨_, rfl⟩) ?_
      intro d member
      rcases List.mem_append.mp member with old | new
      · exact (complete d old).1
      · rw [List.mem_singleton.mp new]
  | advance bytes here front copied unfinished =>
      cases found
      have blocks := held _ here
      rw [front] at blocks
      rw [Stream.unread_advance bytes front]
      exact blocks.advance copied unfinished
  | pop here front complete inside =>
      cases found
      have blocks := held _ here
      rw [front] at blocks
      rw [Stream.unread_pop _ front]
      exact blocks.pop complete


end Track

end Veil.Mux
