import Veil.Mux.Completion

/-!
# What happens to one stream stays with it

All streams of a session share the map, the control queue, the reader and the
writer.  Closing a stream, cancelling it, rejecting it and reading a legal
frame of it nevertheless change nothing of another stream, and they do not end
the session, as long as the control queue has room.  Only an arriving OPEN
does more: it removes the streams whose relay has completed from the map.
-/

namespace Veil.Mux

open Veil.Lib

namespace Session

/-! ## The steps that concern one stream -/

/-- The header of a frame that the peer may send at this point. -/
def Expects (s : Session) (hd : Header) : Prop :=
  (hd.kind = .open → s.server = true ∧ s.lastID < hd.id) ∧
  (hd.kind ≠ .open → hd.id ≤ s.lastID) ∧
  (hd.kind = .data → ∀ st, s.lookup hd.id = some st →
    st.ready = true ∧ st.remoteFIN = false ∧ 0 < st.recvCredit)

/-- The read loop goes on with a legal frame of stream `a`; the transport has not failed. -/
def Arrives (s : Session) (a : Nat) (action : Action) : Prop :=
  match action with
  | .recv bs e =>
      e = none ∧ match s.reader with
        | .payload hd _ _ | .receiving hd _ _ => hd.id = a ∧ bs ≠ []
        -- The bytes of a header do not tell yet whose it is.
        | _ => True
  | .check =>
      ∀ h, s.reader = .header h → ∃ hd, readHeader h = some hd ∧ hd.id = a ∧ s.Expects hd
  | .takeChunk => ∀ hd live, s.reader = .chunk hd live → hd.id = a
  | .dispatch _ =>
      ∀ hd live p, s.reader = .payload hd live p → hd.id = a ∧
        (hd.kind ≠ .open → ∀ st, s.Finds live a st → ¬ Objects s.server st hd.kind p)
  | _ => False

/-- Stream `a` is closed, cancelled or rejected, or a frame of it arrives. -/
def Concerns (s : Session) (a : Nat) (action : Action) : Prop :=
  match action with
  | .close k | .respond k _ | .callReturn k _ => k = a
  -- The context that a stream of the server shares with the others.
  | .cancel => True
  | _ => s.Arrives a action

/-- One such step, taken while the control queue has room. -/
def Touches (a : Nat) (s s' : Session) : Prop :=
  ¬ s.queueFull ∧ ∃ action, s.Concerns a action ∧ s.step action = some s'

/-! ## What they leave alone -/

/--
Stream `b` is as it was, after `frames` have been read.  Among them an OPEN may
have removed it from the map, when its relay has completed.
-/
structure Untouched (b : Nat) (frames : List Frame) (s s' : Session) : Prop where
  stream : s'.objs b = s.objs b
  queue : s'.controls.filter (·.frame.id = b) = s.controls.filter (·.frame.id = b)
  progress : s'.reader.progress b = s.reader.progress b
  listed : b ∈ s'.streams → b ∈ s.streams
  removed : b ∈ s.streams → b ∉ s'.streams →
    (∃ f ∈ frames, f.kind = .open) ∧ (s.objs b).any Stream.applicationDone = true

/-- The session lives on, and the streams other than `a` are as they were. -/
structure Confined (a : Nat) (s s' : Session) : Prop where
  alive : s'.err = s.err
  failing : s'.failing = s.failing
  reading : s'.reader.halted = s.reader.halted
  writing : s'.writer = s.writer
  others : ∃ frames, s'.processed = s.processed ++ frames ∧ (∀ f ∈ frames, f.id = a) ∧
    ∀ b, b ≠ a → Untouched b frames s s'

theorem Untouched.refl (b : Nat) (s : Session) : Untouched b [] s s := by
  constructor
  · rfl
  · rfl
  · rfl
  · exact fun listed => listed
  · exact fun listed missing => (missing listed).elim

theorem Untouched.trans {b : Nat} {first second : List Frame} {s t u : Session}
    (before : Untouched b first s t) (after : Untouched b second t u) :
    Untouched b (first ++ second) s u := by
  constructor
  · exact after.stream.trans before.stream
  · exact after.queue.trans before.queue
  · exact after.progress.trans before.progress
  · exact fun listed => before.listed (after.listed listed)
  · intro listed missing
    by_cases midway : b ∈ t.streams
    · rcases after.removed midway missing with ⟨⟨f, member, open_⟩, complete⟩
      refine ⟨⟨f, List.mem_append_right _ member, open_⟩, ?_⟩
      rw [← before.stream]
      exact complete
    · rcases before.removed listed midway with ⟨⟨f, member, open_⟩, complete⟩
      exact ⟨⟨f, List.mem_append_left _ member, open_⟩, complete⟩

theorem Confined.refl (a : Nat) (s : Session) : Confined a s s where
  alive := rfl
  failing := rfl
  reading := rfl
  writing := rfl
  others := ⟨[], (List.append_nil _).symm, by simp, fun b _ => .refl b s⟩

theorem Confined.trans {a : Nat} {s t u : Session} (before : Confined a s t)
    (after : Confined a t u) : Confined a s u := by
  rcases before.others with ⟨first, read, own, kept⟩
  rcases after.others with ⟨second, readToo, ownToo, keptToo⟩
  constructor
  · exact after.alive.trans before.alive
  · exact after.failing.trans before.failing
  · exact after.reading.trans before.reading
  · exact after.writing.trans before.writing
  · refine ⟨first ++ second, ?_, ?_, fun b other => (kept b other).trans (keptToo b other)⟩
    · rw [readToo, read, List.append_assoc]
    · intro f member
      rcases List.mem_append.mp member with early | late
      · exact own f early
      · exact ownToo f late

/-- A step that leaves the tracks of the other streams alone. -/
theorem confined_of {a : Nat} {s s' : Session} {frames : List Frame}
    (failing : s'.failing = s.failing) (writing : s'.writer = s.writer)
    (read : s'.processed = s.processed ++ frames) (own : ∀ f ∈ frames, f.id = a)
    (same : ∀ b, b ≠ a → s'.track b = s.track b) : Confined a s s' := by
  have another := same (a + 1) (Nat.succ_ne_self a)
  constructor
  · exact congrArg Track.err another
  · exact failing
  · exact congrArg Track.halted another
  · exact writing
  · refine ⟨frames, read, own, fun b other => ?_⟩
    have both := same b other
    have listed : b ∈ s'.streams ↔ b ∈ s.streams := by
      rw [← trackWith_listed s' s'.writer.sentControls s'.writer.completed,
        ← trackWith_listed s s.writer.sentControls s.writer.completed]
      exact iff_of_eq (congrArg (fun t => t.listed = true) both)
    constructor
    · exact congrArg Track.st both
    · exact congrArg Track.queue both
    · exact congrArg Track.progress both
    · exact listed.mp
    · exact fun here missing => (missing (listed.mpr here)).elim

/-! ## One step -/

theorem close_confined {s s' : Session} {a : Nat} (alive : s.err = none)
    (room : ¬ s.queueFull) (taken : s.close a = some s') : Confined a s s' := by
  rcases close_cases taken with ⟨st, -, ⟨-, rfl⟩ | ⟨-, ⟨-, -, -, -, full, -⟩ |
    ⟨-, -, -, -, -, rfl⟩ | ⟨-, e, failed, rfl⟩⟩⟩
  · exact .refl a s'
  · exact (room full).elim
  · refine @confined_of _ _ _ [] rfl rfl (List.append_nil _).symm (by simp) fun b other => ?_
    rw [track_queued_other _ _ _ _ other.symm, track_shutStream_other _ _ _ other]
  · have none_ : e = none := by
      cases e with
      | none => rfl
      | some cause => cases alive.symm.trans (failed cause rfl)
    subst none_
    refine @confined_of _ _ _ [] (List.append_nil _) rfl (List.append_nil _).symm (by simp)
      fun b other => ?_
    rw [track_willFail, track_shutStream_other _ _ _ other]

theorem respond_confined {s s' : Session} {a : Nat} {code : Byte} {result : Option Err}
    (taken : s.respond a code = some (s', result)) : Confined a s s' := by
  have same : ∀ b, b ≠ a → s'.track b = s.track b := fun b other =>
    still (respond_moves taken b) fun event occurs => other occurs.1.symm
  rcases respond_cases taken with ⟨st, -, -, ⟨rfl, -⟩ | ⟨-, -, -, -, ⟨-, -, rfl⟩ |
    ⟨-, -, -, rfl⟩⟩⟩
  · exact .refl a s'
  · exact @confined_of _ _ _ [] rfl rfl (List.append_nil _).symm (by simp) same
  · exact @confined_of _ _ _ [] rfl rfl (List.append_nil _).symm (by simp) same

theorem callReturn_confined {s s' : Session} {a : Nat} {wake : Wake} {result : Option Err}
    (taken : s.callReturn a wake = some (s', result)) : Confined a s s' := by
  have same : ∀ b, b ≠ a → s'.track b = s.track b := fun b other =>
    still (callReturn_moves taken b) fun event occurs => other occurs.1.symm
  rcases callReturn_cases taken with ⟨st, -, ⟨-, -, rest, -, rfl⟩ | ⟨-, -, rest, -, rfl⟩ |
    ⟨-, -, -, -, rfl⟩⟩
  all_goals exact @confined_of _ _ _ [] rfl rfl (List.append_nil _).symm (by simp) same

/-! ### The read loop -/

/-- The read loop moves on without touching the track. -/
theorem track_reader {s s' : Session} {reader : Reader} {b : Nat}
    (same : s'.track b = s.track b) (halted : reader.halted = s.reader.halted)
    (progress : reader.progress b = s.reader.progress b) :
    ({ s' with reader := reader }).track b = s.track b := by
  have moved : ({ s' with reader := reader }).track b =
      { s'.track b with halted := reader.halted, progress := reader.progress b } := rfl
  rw [moved, same, halted, progress]
  rfl

/-- Publishing a block concerns no more than its stream. -/
theorem published_rest (s : Session) (k : Nat) (bs : List Byte) (discard complete : Bool) :
    (s.published k bs discard complete).failing = s.failing ∧
      (s.published k bs discard complete).writer = s.writer ∧
      (s.published k bs discard complete).processed = s.processed := by
  unfold published
  split <;> exact ⟨rfl, rfl, rfl⟩

theorem recv_confined {s s' : Session} {a : Nat} {bs : List Byte} {e : Option Err}
    (arrives : s.Arrives a (.recv bs e)) (taken : s.recv bs e = some s') : Confined a s s' := by
  rcases arrives with ⟨rfl, own⟩
  unfold recv at taken
  rw [if_neg (by simp)] at taken
  simp only at taken own
  split at taken
  · next h position =>
      rcases recvHeader_cases taken with ⟨-, -, ⟨-, rfl⟩ | ⟨-, _, failed, -⟩⟩
      · exact @confined_of _ _ _ [] rfl rfl (List.append_nil _).symm (by simp) fun b _ =>
          @track_reader s (s.hears bs) _ b rfl (by rw [position]; rfl) (by rw [position]; rfl)
      · cases failed
  · next hd live p position =>
      rw [position] at own
      rcases recvPayload_cases taken with ⟨-, -, ⟨-, -, rfl⟩ | ⟨cause, failed, -⟩⟩
      · exact @confined_of _ _ _ [] rfl rfl (List.append_nil _).symm (by simp) fun b _ =>
          @track_reader s (s.hears bs) _ b rfl (by rw [position]; rfl) (by rw [position]; rfl)
      · rcases failed with failed | ⟨-, nothing, -⟩
        · cases failed
        · exact (own.2 nothing).elim
  · next hd got discard position =>
      rw [position] at own
      rcases own with ⟨rfl, something⟩
      have fine : receiveError bs none = none := by simp [receiveError, something]
      have reading : ∀ b, (s.track b).halted = false := fun b => by
        simp [track, position, Reader.halted]
      have away : ∀ b, b ≠ hd.id → (s.track b).progress = .away := fun b other => by
        simp [track, position, Reader.progress, Ne.symm other]
      rcases recvData_cases taken with ⟨-, ⟨-, -, rfl⟩ | ⟨-, -, rfl⟩ | ⟨cause, failed, -⟩⟩
      · rcases published_rest (s.hears bs) hd.id bs discard true with ⟨failing, writing, read⟩
        refine @confined_of _ _ _ [⟨.data, hd.id, got ++ bs⟩] failing writing
          (congrArg (· ++ [_]) read) (by simp) fun b other => ?_
        rw [@track_consumed_other _ ⟨.data, hd.id, got ++ bs⟩ b other.symm _ _ (reading b)
          (away b other), published_other other]
        rfl
      · rcases published_rest (s.hears bs) hd.id bs discard false with ⟨failing, writing, read⟩
        refine @confined_of _ _ _ [] failing writing (read.trans (List.append_nil _).symm)
          (by simp) fun b other => ?_
        refine track_reader (published_other other) (by rw [position]; rfl) ?_
        rw [position]
        simp [Reader.progress, other.symm]
      · cases fine.symm.trans failed
  · cases taken

theorem check_confined {s s' : Session} {a : Nat} (arrives : s.Arrives a .check)
    (taken : s.check = some s') : Confined a s s' := by
  rcases check_cases taken with ⟨h, position, -, outcome⟩
  rcases arrives h position with ⟨hd, read, rfl, fresh, old, flows⟩
  have halted : ∀ reader : Reader, reader.halted = false → reader.halted = s.reader.halted := by
    intro reader running
    rw [position, running]
    rfl
  have away : ∀ b, s.reader.progress b = .away := fun b => by
    rw [position]
    rfl
  rcases outcome with ⟨refused, -⟩ | ⟨hd', read', outcome⟩
  · rcases refused with none_ | ⟨hd', read', stale | high | ⟨data, st, found, blocked⟩⟩
    · cases read.symm.trans none_
    · cases read.symm.trans read'
      exact (stale.2 (fresh stale.1)).elim
    · cases read.symm.trans read'
      exact (not_lt.mpr (old high.1) high.2).elim
    · cases read.symm.trans read'
      exact (blocked (flows data st found)).elim
  · cases read.symm.trans read'
    rcases outcome with ⟨-, -, -, rfl⟩ | ⟨-, -, st, -, -, -, -, rfl⟩ | ⟨-, -, -, rfl⟩
    · refine @confined_of _ _ _ [] rfl rfl (List.append_nil _).symm (by simp) fun b other => ?_
      refine track_reader rfl (halted _ rfl) ?_
      rw [away]
      simp [Reader.progress, other.symm]
    · refine @confined_of _ _ _ [] rfl rfl (List.append_nil _).symm (by simp) fun b other => ?_
      refine track_reader (track_set_other _ _ _ _ other) (halted _ rfl) ?_
      rw [away]
      simp [Reader.progress, other.symm]
    · refine @confined_of _ _ _ [] rfl rfl (List.append_nil _).symm (by simp) fun b other => ?_
      refine track_reader rfl (halted _ rfl) ?_
      rw [away]
      simp [Reader.progress, other.symm]

theorem takeChunk_confined {s s' : Session} {a : Nat} (arrives : s.Arrives a .takeChunk)
    (taken : s.takeChunk = some s') : Confined a s s' := by
  rcases takeChunk_cases taken with ⟨hd, live, position, outcome⟩
  obtain rfl := arrives hd live position
  have progress : ∀ got discard, ∀ b, b ≠ hd.id →
      (Reader.receiving hd got discard).progress b = s.reader.progress b := by
    intro got discard b other
    rw [position]
    simp [Reader.progress, other.symm]
  rcases outcome with ⟨st, -, -, -, -, rfl⟩ | ⟨-, rfl⟩
  · refine @confined_of _ _ _ [] rfl rfl (List.append_nil _).symm (by simp) fun b other => ?_
    refine track_reader (track_set_other _ _ _ _ other) ?_ (progress _ _ b other)
    rw [position]
    rfl
  · refine @confined_of _ _ _ [] rfl rfl (List.append_nil _).symm (by simp) fun b other => ?_
    refine track_reader rfl ?_ (progress _ _ b other)
    rw [position]
    rfl

/-- An OPEN is admitted, or refused to the peer while there is room to say so. -/
theorem admission_room {s : Session} (alive : s.err = none) (room : ¬ s.queueFull) (id : Nat)
    (p : List Byte) (draw : Nat) :
    s.admission id p draw = ((s.swept id).queued ⟨.failed, id, [1]⟩ .nobody, none) ∨
      s.admission id p draw =
        ({ (s.swept id).newStreamLocked id p draw with accepted := s.accepted ++ [id] },
          none) := by
  by_cases full : s.AtCapacity id
  · have folded : s.admission id p draw =
        (s.swept id).controlLocked .failed id [1] .nobody := if_pos full
    have plain : Kind.failed ≠ Kind.credit := by decide
    rcases controlLocked_plain (s.swept id) plain id [1] .nobody with
      ⟨e, failed, -⟩ | ⟨-, crowded, -⟩ | ⟨-, -, outcome⟩
    · cases alive.symm.trans failed
    · exact (room crowded).elim
    · exact .inl (folded.trans outcome)
  · exact .inr (if_neg full)

/-- An OPEN removes the streams whose relay has completed, and leaves them as they are. -/
theorem open_confined {s : Session} {hd : Header} {live : Bool} {p : List Byte} {draw : Nat}
    (alive : s.err = none) (room : ¬ s.queueFull) (position : s.reader = .payload hd live p)
    (open_ : hd.kind = .open) :
    Confined hd.id s ((s.admission hd.id p draw).1.consumed ⟨hd.kind, hd.id, p⟩) := by
  have halted : (Reader.header []).halted = s.reader.halted := by
    rw [position]
    rfl
  have away : ∀ b, (Reader.header []).progress b = s.reader.progress b := fun b => by
    rw [position]
    simp [Reader.progress, open_]
  have removed : ∀ b, b ∈ s.streams → b ∉ (s.swept hd.id).streams →
      (s.objs b).any Stream.applicationDone = true := by
    intro b listed missing
    simpa [swept, listed] using missing
  have opened : ∃ f ∈ [(⟨hd.kind, hd.id, p⟩ : Frame)], f.kind = .open :=
    ⟨_, List.mem_singleton_self _, open_⟩
  rcases admission_room alive room hd.id p draw with outcome | outcome
  · rw [outcome]
    refine ⟨rfl, rfl, halted, rfl, [⟨hd.kind, hd.id, p⟩], rfl, by simp, fun b other => ?_⟩
    constructor
    · rfl
    · simp [consumed, queued, swept, other.symm]
    · exact away b
    · exact fun listed => (List.mem_filter.mp listed).1
    · exact fun listed missing => ⟨opened, removed b listed missing⟩
  · rw [outcome]
    refine ⟨rfl, rfl, halted, rfl, [⟨hd.kind, hd.id, p⟩], rfl, by simp, fun b other => ?_⟩
    constructor
    · exact if_neg other
    · rfl
    · exact away b
    · intro listed
      rcases List.mem_append.mp listed with old | new
      · exact (List.mem_filter.mp old).1
      · exact (other (List.mem_singleton.mp new)).elim
    · intro listed missing
      exact ⟨opened, removed b listed fun kept => missing (List.mem_append_left _ kept)⟩

/-- What a frame does to its stream concerns no more than that stream. -/
theorem afterFrame_rest (s : Session) (k : Nat) (st : Stream) (t : Kind) (p : List Byte) :
    (s.afterFrame k st t p).failing = s.failing ∧ (s.afterFrame k st t p).writer = s.writer ∧
      (s.afterFrame k st t p).processed = s.processed := by
  cases t <;> exact ⟨rfl, rfl, rfl⟩

theorem dispatch_confined {s s' : Session} {a draw : Nat} (alive : s.err = none)
    (room : ¬ s.queueFull) (arrives : s.Arrives a (.dispatch draw))
    (taken : s.dispatch draw = some s') : Confined a s s' := by
  rcases dispatch_cases taken with ⟨hd, live, p, position, -, outcome⟩
  rcases arrives hd live p position with ⟨rfl, legal⟩
  have reading : ∀ b, (s.track b).halted = false := fun b => by
    simp [track, position, Reader.halted]
  have away : ∀ b, b ≠ hd.id → (s.track b).progress = .away := fun b other => by
    simp [track, position, Reader.progress, Ne.symm other]
  rcases outcome with ⟨open_, ⟨-, rfl⟩ | ⟨e, refused, -⟩⟩ | ⟨control, -, rfl⟩ |
    ⟨control, st, found, ⟨bad, -⟩ | ⟨-, rfl⟩⟩
  · exact open_confined alive room position open_
  · rcases admission_room alive room hd.id p draw with outcome | outcome
    · rw [outcome] at refused
      cases refused
    · rw [outcome] at refused
      cases refused
  · refine @confined_of _ _ _ [⟨hd.kind, hd.id, p⟩] rfl rfl rfl (by simp) fun b other => ?_
    rw [@track_consumed_other _ ⟨hd.kind, hd.id, p⟩ b other.symm _ _ (reading b) (away b other)]
  · exact (legal control st found bad).elim
  · rcases afterFrame_rest s hd.id st hd.kind p with ⟨failing, writing, read⟩
    refine @confined_of _ _ _ [⟨hd.kind, hd.id, p⟩] failing writing
      (congrArg (· ++ [_]) read) (by simp) fun b other => ?_
    rw [@track_consumed_other _ ⟨hd.kind, hd.id, p⟩ b other.symm _ _ (reading b) (away b other),
      track_afterFrame_other _ _ _ _ other]

/-! ## All of them -/

theorem step_confined {s s' : Session} {a : Nat} {action : Action} (alive : s.err = none)
    (room : ¬ s.queueFull) (concerns : s.Concerns a action) (taken : s.step action = some s') :
    Confined a s s' := by
  cases action with
  | close k =>
      obtain rfl : k = a := concerns
      exact close_confined alive room taken
  | respond k code =>
      obtain rfl : k = a := concerns
      obtain ⟨⟨_, result⟩, made, rfl⟩ := Option.map_eq_some_iff.mp taken
      exact respond_confined made
  | callReturn k wake =>
      obtain rfl : k = a := concerns
      obtain ⟨⟨_, result⟩, made, rfl⟩ := Option.map_eq_some_iff.mp taken
      exact callReturn_confined made
  | cancel =>
      simp only [step, Option.ite_none_right_eq_some, Option.some.injEq] at taken
      obtain ⟨-, rfl⟩ := taken
      exact @confined_of _ _ _ [] rfl rfl (List.append_nil _).symm (by simp) fun b _ => rfl
  | recv bs e => exact recv_confined concerns taken
  | check => exact check_confined concerns taken
  | takeChunk => exact takeChunk_confined concerns taken
  | dispatch draw => exact dispatch_confined alive room concerns taken
  | _ => exact concerns.elim

/--
Whatever is done to a stream and whatever legal frames of it arrive, the session
lives on and the other streams stay as they are.  An OPEN among the frames may
remove streams whose relay has completed.
-/
theorem streams_isolated {a : Nat} {s s' : Session} (alive : s.err = none)
    (steps : Relation.ReflTransGen (Touches a) s s') : Confined a s s' := by
  induction steps with
  | refl => exact .refl a s
  | tail _ last before =>
      obtain ⟨room, action, concerns, taken⟩ := last
      exact before.trans (step_confined (before.alive.trans alive) room concerns taken)

/-- A server has two streams, and the RESET of one of them arrives. -/
theorem streams_isolated_reset : ∃ s s' : Session,
    anyMachine.run waiting (readsIn ⟨.open, 1, [7]⟩ ++ readsIn ⟨.open, 3, [7]⟩) = some s ∧
      anyMachine.run s (readsIn ⟨.reset, 1, []⟩) = some s' ∧ Confined 1 s s' := by
  have seen : (anyMachine.run waiting
      (readsIn ⟨.open, 1, [7]⟩ ++ readsIn ⟨.open, 3, [7]⟩)).any (fun s =>
        s.err.isNone && decide (¬ s.queueFull) && s.reader == .header [] &&
          (s.step (.recv (Header.bytes ⟨.reset, 1, 0⟩) none)).any fun t =>
            decide (¬ t.queueFull) && t.reader == .header (Header.bytes ⟨.reset, 1, 0⟩) &&
              t.lastID == 3 && (t.step .check).any fun u =>
                decide (¬ u.queueFull) && u.reader == .payload ⟨.reset, 1, 0⟩ true [] &&
                  (u.step (.dispatch 0)).isSome) = true := by
    decide +kernel
  simp only [Option.any_eq_true, Bool.and_eq_true, beq_iff_eq, decide_eq_true_eq,
    Option.isNone_iff_eq_none, Option.isSome_iff_exists] at seen
  obtain ⟨s, ran, ⟨⟨alive, room⟩, start⟩, t, heard, ⟨⟨roomToo, header⟩, last⟩, u, checked,
    ⟨roomStill, payload⟩, s', done⟩ := seen
  have first : Touches 1 s t := by
    refine ⟨room, .recv _ _, ⟨rfl, ?_⟩, heard⟩
    rw [start]
    trivial
  have second : Touches 1 t u := by
    refine ⟨roomToo, .check, ?_, checked⟩
    intro h position
    cases header.symm.trans position
    refine ⟨⟨.reset, 1, 0⟩, by decide, rfl, by simp, fun _ => ?_, by simp⟩
    rw [last]
    decide
  have third : Touches 1 u s' := by
    refine ⟨roomStill, .dispatch 0, ?_, done⟩
    intro hd live p position
    cases payload.symm.trans position
    exact ⟨rfl, fun _ _ _ => id⟩
  refine ⟨s, s', ran, ?_, streams_isolated alive (.tail (.tail (.single first) second) third)⟩
  exact Option.bind_eq_some_iff.mpr ⟨t, heard, Option.bind_eq_some_iff.mpr ⟨u, checked,
    Option.bind_eq_some_iff.mpr ⟨s', done, rfl⟩⟩⟩

end Session

end Veil.Mux
