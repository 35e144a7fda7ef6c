import Mathlib.Data.List.TakeWhile
import Veil.Mux.Conservation
import Veil.Mux.Grammar
import Veil.Mux.Order

/-!
# Every frame is legal where it arrives

A client and a server session change their streams at different times, and frames
cross on the way.  Each frame nevertheless finds the peer in a state that allows it, as
long as no frame that opens, answers or ends a direction was refused by a full control
queue: neither side ever takes the other for broken.
-/

namespace Veil.Mux

open Veil.Lib

namespace Track

/-- A client asks for a stream before anything else, and sends DATA only when answered. -/
structure Asked (t : Track) : Prop where
  opening : t.err = none → t.st ≠ none → Has t.frames .open
  data : Has t.out .data → ∃ st, t.st = some st ∧ st.ready = true
  reset : Prior (Kind.is .open) .reset t.frames

theorem asked_move {event : Event} {t t' : Track} (move : Move event t t')
    (room : event ≠ .openFull) (client : t.server = false) (flags : t.FlagsOk)
    (placed : t.Placed) (sent : t.BytesSent) (held : t.Asked) : t'.Asked := by
  rcases held with ⟨opening, data, reset⟩
  have new := placed.new
  have plain := sent.plain
  have writing : ∀ st r, t.st = some st → st.request = some r → st.ready = true := by
    intro st r here pending
    exact ((flags st here).writing ((flags st here).pending.mp (by simp [pending]))).1
  clear placed flags sent
  simp only [frames, waiting] at *
  cases move <;> constructor <;>
    first | assumption | grind -ring -linarith [frames, waiting, deferredFin, prior_of_absent]

/-- The frame that a session takes next is one its peer has sent. -/
theorem Linked.has {a b : Track} (link : Linked a b) {kind : Kind} (some_ : Has b.inn kind) :
    Has a.out kind := by
  rcases some_ with ⟨f, member, same⟩
  exact ⟨f, link.frames.subset member, same⟩

theorem has_of_next {a b : Track} {f : Frame} (next : b.inn ++ [f] <+: a.out) :
    Has a.out f.kind :=
  ⟨f, next.subset (by simp), rfl⟩

theorem has_frames {t : Track} {kind : Kind} (some_ : Has t.out kind) : Has t.frames kind :=
  (has_append _ _ _).mpr (.inl some_)

/-- What the order of the frames sent says about those read so far. -/
theorem among_inn {a b : Track} {earlier : Kind → Bool} {f : Frame}
    (prior : Prior earlier f.kind a.frames) (next : b.inn ++ [f] <+: a.out)
    (other : earlier f.kind = false) : Among earlier b.inn := by
  rcases next with ⟨rest, split_⟩
  rw [frames, ← split_, List.append_assoc, List.append_assoc] at prior
  exact Mux.Prior.before prior rfl other

/-- A frame that is sent once has not been read before. -/
theorem fresh_of_once {a b : Track} {f : Frame} (once : times a.frames f.kind ≤ 1)
    (next : b.inn ++ [f] <+: a.out) : ¬ Has b.inn f.kind := by
  intro before
  rcases next with ⟨rest, split_⟩
  have first := times_pos.mpr before
  rw [frames, ← split_] at once
  simp only [times_append, times_cons, times_nil] at once
  simp at once
  omega

/-- No DATA comes behind FIN. -/
theorem unended_of_data {a b : Track} (sender : a.Inv) (receiver : b.Inv) {f : Frame}
    (data : f.kind = .data) (next : b.inn ++ [f] <+: a.out) {st : Stream}
    (here : b.st = some st) : st.remoteFIN = false := by
  by_contra ended
  obtain ⟨fin, member, kind⟩ := (receiver.received st here).heard (by simpa using ended)
  rcases next with ⟨rest, split_⟩
  have started : ¬ (b.inn.dropWhile (·.kind ≠ .fin)).isEmpty = true := by
    rw [List.isEmpty_iff, List.dropWhile_eq_nil_iff]
    exact fun all => by simpa [kind] using all fin member
  refine sender.sent.last f ?_ data
  rw [← split_, List.append_assoc, List.dropWhile_append, if_neg started]
  simp

/-- The window of a stream is open for the next DATA frame its peer has sent. -/
theorem window_of_data {a b : Track} (back : Linked b a) (sender : a.Inv) (receiver : b.Inv)
    {f : Frame} (data : f.kind = .data) (next : b.inn ++ [f] <+: a.out)
    (away : b.progress = .away) {st : Stream} (here : b.st = some st)
    (unclosed : st.closed = false) : 0 < st.recvCredit := by
  have sent := back.sent_le sender
  have shared := (receiver.window st here unclosed).1
  have repaid := (receiver.grant.2 st here).bound unclosed
  rcases next with ⟨rest, split_⟩
  have more := dataCount_nonneg rest
  have queued := creditSum_nonneg (b.queue.map Control.frame)
  rw [← split_, dataCount_append, dataCount_append, dataCount_data data] at sent
  simp only [granted, away, Progress.held] at repaid
  simp only [away, Progress.pre] at shared
  omega

/-! ## Two tracks of one stream -/

/-- A stream at a client and at a server between which nothing was refused. -/
structure Sides (c s : Track) : Prop where
  forth : Linked c s
  back : Linked s c
  isClient : c.server = false
  isServer : s.server = true
  client : c.Inv
  server : s.Inv
  asked : c.Asked
  answered : s.Answered
  refused : s.Refused

namespace Sides

variable {c s : Track} (sides : Sides c s)
include sides

/-- A server only sends for a stream it was asked for. -/
theorem opened_of_out {kind : Kind} (some_ : Has s.out kind) : Has s.inn .open := by
  obtain ⟨f, member, -⟩ := some_
  exact sides.server.answers.asked sides.isServer (.inr (.inl (List.ne_nil_of_mem member)))

/-- The frames of a server are for streams the client has opened. -/
theorem known_client {f : Frame} (next : c.inn ++ [f] <+: s.out) : c.above = false := by
  have opened := sides.forth.has (sides.opened_of_out (has_of_next next))
  by_contra above
  obtain ⟨g, member, -⟩ := opened
  rw [(sides.client.placed.new (by simpa using above)).2.2.2.1] at member
  cases member

/-- A client that has sent DATA or FIN has been answered. -/
theorem ready_of_out (some_ : Has c.out .data ∨ Has c.out .fin) : Has c.inn .opened := by
  have ready : ∃ st, c.st = some st ∧ st.ready = true := by
    rcases some_ with data | ⟨f, member, kind⟩
    · exact sides.asked.data data
    · obtain ⟨st, here, ended⟩ := sides.client.sent.sent f member kind
      exact ⟨st, here, (sides.client.flags st here).sent ended⟩
  obtain ⟨st, here, ready⟩ := ready
  exact sides.client.answers.answered st here sides.isClient ready

/-- A client sends neither an answer nor DONE. -/
theorem unanswering {kind : Kind} (some_ : Has c.out kind) :
    kind ≠ .opened ∧ kind ≠ .failed ∧ kind ≠ .finished := by
  have sent := has_frames some_
  refine ⟨?_, ?_, ?_⟩
  · rintro rfl
    cases sides.isClient.symm.trans (sides.client.roles.opened sent).1
  · rintro rfl
    cases sides.isClient.symm.trans (sides.client.roles.failed sent)
  · rintro rfl
    cases sides.isClient.symm.trans (sides.client.roles.finished sent).1

/-- What a client sends for a stream comes behind its OPEN. -/
theorem known_server {f : Frame} (next : s.inn ++ [f] <+: c.out) (other : f.kind ≠ .open) :
    Has s.inn .open := by
  have some_ := has_of_next next
  obtain ⟨opened, failed, finished⟩ := sides.unanswering some_
  cases kind : f.kind with
  | «open» => exact absurd kind other
  | opened => exact absurd kind opened
  | failed => exact absurd kind failed
  | finished => exact absurd kind finished
  | data =>
      rw [kind] at some_
      exact sides.opened_of_out (sides.back.has (sides.ready_of_out (.inl some_)))
  | fin =>
      rw [kind] at some_
      exact sides.opened_of_out (sides.back.has (sides.ready_of_out (.inr some_)))
  | reset =>
      have prior := sides.asked.reset
      rw [← kind] at prior
      exact among_is.mp (among_inn prior next (by rw [kind]; rfl))
  | credit =>
      -- a grant is for DATA that the server has sent
      rw [kind] at some_
      have sent := sides.back.granted_le sides.client
      have positive : 0 < creditSum c.out := by
        obtain ⟨g, member, credit⟩ := some_
        have amount := (sides.client.formed.sent g (List.mem_append_left _ member)).2.2 credit
        obtain ⟨before, after, split_⟩ := List.append_of_mem member
        have first := creditSum_nonneg before
        have later := creditSum_nonneg after
        rw [split_, creditSum_append, creditSum_cons, creditSum_credit credit]
        omega
      have queued := creditSum_nonneg (c.queue.map Control.frame)
      rw [granted] at sent
      refine sides.server.answers.asked sides.isServer (.inr (.inl ?_))
      rintro nothing
      rw [nothing] at sent
      simp only [dataCount_nil] at sent
      omega

/-! ### Whether the stream is open -/

theorem ready_server {f : Frame} (next : s.inn ++ [f] <+: c.out)
    (kind : f.kind = .data ∨ f.kind = .fin) {st : Stream} (here : s.st = some st) :
    st.ready = true := by
  have some_ := has_of_next next
  have sent : Has c.out .data ∨ Has c.out .fin := by
    rcases kind with data | fin
    · exact .inl (data ▸ some_)
    · exact .inr (fin ▸ some_)
  have opened := sides.back.has (sides.ready_of_out sent)
  obtain ⟨-, st', here', ready⟩ := sides.server.roles.opened (has_frames opened)
  cases here.symm.trans here'
  exact ready

/-- A client that still listens has heard the answer before DATA, FIN or DONE. -/
theorem ready_client {f : Frame} (next : c.inn ++ [f] <+: s.out)
    (prior : Prior Kind.isAnswer f.kind s.frames) (plain : f.kind.isAnswer = false)
    {st : Stream} (here : c.st = some st) (hearing : c.Hearing st) : st.ready = true := by
  have heeds := sides.client.heard st here hearing
  obtain ⟨answer, member, kind⟩ := among_inn prior next plain
  cases answered : answer.kind with
  | opened => exact heeds.opened ⟨answer, member, answered⟩
  | failed => exact absurd ⟨answer, member, answered⟩ heeds.failed
  | _ => simp [answered, Kind.isAnswer] at kind

/-! ### Control frames -/

theorem accepted_server {f : Frame} (next : s.inn ++ [f] <+: c.out) {st : Stream}
    (here : s.st = some st) : ¬ Session.Objects true st f.kind f.payload := by
  obtain ⟨opened, failed, finished⟩ := sides.unanswering (has_of_next next)
  intro objects
  cases kind : f.kind with
  | opened => exact absurd kind opened
  | failed => exact absurd kind failed
  | finished => exact absurd kind finished
  | fin =>
      have ready := sides.ready_server next (.inr kind) here
      rw [kind] at objects
      rcases objects with closed | ended
      · cases ready.symm.trans closed
      · obtain ⟨g, member, heard⟩ := (sides.server.received st here).heard ended
        have once := sides.client.once.fin
        rw [← kind] at once heard
        exact fresh_of_once once next ⟨g, member, heard⟩
  | credit =>
      rw [kind] at objects
      have fits := sides.back.credit_fits sides.server sides.client here kind next
      rcases objects with nothing | past
      · exact fits.1 nothing
      · exact absurd fits.2 (not_le.mpr past)
  | «open» | data | reset =>
      rw [kind] at objects
      exact objects

theorem accepted_client {f : Frame} (next : c.inn ++ [f] <+: s.out) {st : Stream}
    (here : c.st = some st) (hearing : c.Hearing st) :
    ¬ Session.Objects false st f.kind f.payload := by
  have some_ := has_of_next next
  have heeds := sides.client.heard st here hearing
  intro objects
  cases kind : f.kind with
  | opened =>
      rw [kind] at objects
      have opened := sides.client.answers.answered st here sides.isClient
        (objects.resolve_left (by simp))
      have once := sides.server.once.opened
      rw [← kind] at once opened
      exact fresh_of_once once next opened
  | failed =>
      rw [kind] at objects some_
      have opened := sides.client.answers.answered st here sides.isClient
        (objects.resolve_left (by simp))
      -- a server that sends both sends FAILED first
      obtain ⟨g, member, answer⟩ := opened
      obtain ⟨first, later, split_⟩ := List.append_of_mem member
      have prior := sides.refused.failed (has_frames some_)
      rcases next with ⟨rest, same⟩
      rw [frames, ← same, split_] at prior
      simp only [List.append_assoc, List.cons_append] at prior
      obtain ⟨earlier, before, refusal⟩ := among_is.mp (Mux.Prior.before prior answer rfl)
      exact heeds.failed ⟨earlier, by rw [split_]; exact List.mem_append_left _ before, refusal⟩
  | fin =>
      have ready := sides.ready_client next (by rw [kind]; exact sides.answered.fin)
        (by rw [kind]; rfl) here hearing
      rw [kind] at objects
      rcases objects with closed | ended
      · cases ready.symm.trans closed
      · obtain ⟨g, member, heard⟩ := (sides.client.received st here).heard ended
        have once := sides.server.once.fin
        rw [← kind] at once heard
        exact fresh_of_once once next ⟨g, member, heard⟩
  | finished =>
      rw [kind] at objects some_
      rcases objects with server | confirmed | unended | waiting
      · cases server
      · have once := sides.server.once.finished
        have heard := sides.client.answers.confirmed st here confirmed
        rw [← kind] at once heard
        exact fresh_of_once once next heard
      · -- a server confirms only a direction whose FIN it has read
        obtain ⟨-, st', here', complete⟩ := sides.server.roles.finished (has_frames some_)
        have flags := sides.server.flags st' here'
        obtain ⟨g, member, heard⟩ :=
          (sides.server.received st' here').heard (flags.complete complete).2.2
        obtain ⟨sender, found, ended⟩ := sides.client.sent.sent g
          (sides.forth.frames.subset member) heard
        cases here.symm.trans found
        cases ended.symm.trans unended
      · have prior := sides.refused.ending
        rw [← kind] at prior
        have fin := heeds.fin (among_is.mp (among_inn prior next (by rw [kind]; rfl)))
        cases fin.symm.trans waiting
  | credit =>
      rw [kind] at objects
      have fits := sides.forth.credit_fits sides.client sides.server here kind next
      rcases objects with nothing | past
      · exact fits.1 nothing
      · exact absurd fits.2 (not_le.mpr past)
  | «open» | data | reset =>
      rw [kind] at objects
      exact objects

end Sides

theorem server_move {event : Event} {t t' : Track} (move : Move event t t') :
    t'.server = t.server := by
  cases move <;> rfl

end Track

/-! ## Runs in which nothing is refused -/

/-- The events of a run in which a session of this role is refused nothing. -/
def Event.Fits (server : Bool) (event : Event) : Prop :=
  event ≠ .openFull ∧ (server = true → event.Tidy)

namespace Session

/--
No OPEN, OPENED or FIN of a server finds the control queue full, and no call on a
server's stream is cut short while the OPENED of the stream is queued.  A client only
needs room for its OPEN.
-/
def Unrefused (s : Session) : Action → Prop
  | .open metadata _ => ¬ (s.queueFull ∧ s.allocates metadata)
  | .respond k code => ¬ (code = 0 ∧ s.queueFull ∧ s.answers k)
  | .closeWrite k => ¬ (s.server = true ∧ s.queueFull ∧ s.endsWriting k)
  | .callReturn k wake => ¬ (s.server = true ∧ s.abandons k wake)
  | _ => True

instance (s : Session) (metadata : List Byte) : Decidable (s.allocates metadata) :=
  inferInstanceAs (Decidable (_ ∧ _))

instance (s : Session) (k : Nat) : Decidable (s.answers k) :=
  decidable_of_iff (s.err = none ∧ s.server = true ∧ (s.objs k).any (fun st =>
      decide (st.call = .idle ∧ st.err = none ∧ st.ready = false ∧ st.closed = false)) = true) <| by
    simp [answers, Option.any_eq_true]

instance (s : Session) (k : Nat) : Decidable (s.endsWriting k) :=
  decidable_of_iff (s.err = none ∧ (s.objs k).any (fun st =>
      decide (st.call = .idle ∧ st.err = none ∧ st.closed = false ∧ st.localFIN = false ∧
        st.ready = true ∧ ¬ (s.server = true ∧ st.remoteFIN = true))) = true) <| by
    simp only [endsWriting, Option.any_eq_true, decide_eq_true_eq]

instance (s : Session) (k : Nat) (wake : Wake) : Decidable (s.abandons k wake) :=
  decidable_of_iff (wake = .stopped ∧ s.err = none ∧
      (s.objs k).any (fun st => decide (st.err = none)) = true ∧
      ∃ c ∈ s.controls, c.frame.id = k ∧ c.frame.kind = .opened) <| by
    simp [abandons, Option.any_eq_true]

instance (s : Session) (action : Action) : Decidable (s.Unrefused action) :=
  match action with
  | .open _ _ | .respond _ _ | .closeWrite _ | .callReturn _ _ =>
      inferInstanceAs (Decidable (¬ _))
  | .accept | .read _ _ _ | .write _ _ | .writeReturn _ | .finish _ | .close _
  | .closeSession | .cancel | .fail _ | .recv _ _ | .check | .takeChunk | .dispatch _
  | .wakeUp | .batch _ | .send _ | .writeEnd _ => inferInstanceAs (Decidable True)

theorem fits_of_occurs {s : Session} {action : Action} (fine : s.Unrefused action) {k : Nat}
    {event : Event} (occurs : s.Occurs action k event) : event.Fits s.server := by
  have plain : event ≠ .openFull ∧ event ≠ .respondFull 0 ∧ event ≠ .closeWriteFull ∧
      event ≠ .abandoned → event.Fits s.server :=
    fun tidy => ⟨tidy.1, fun _ => tidy⟩
  cases action with
  | «open» metadata draw =>
      rcases occurs with rfl | rfl | ⟨rfl, full, allocates⟩
      · exact plain (by simp)
      · exact plain (by simp)
      · exact absurd ⟨full, allocates⟩ fine
  | respond j code =>
      rcases occurs with ⟨rfl, rfl | ⟨rfl, full, answers⟩⟩
      · exact plain (by simp)
      · refine plain ⟨by simp, ?_, by simp, by simp⟩
        rintro same
        exact fine ⟨Event.respondFull.inj same, full, answers⟩
  | callReturn j wake =>
      rcases occurs with ⟨rfl, rfl | ⟨rfl, abandons⟩⟩
      · exact plain (by simp)
      · exact ⟨by simp, fun server => absurd ⟨server, abandons⟩ fine⟩
  | closeWrite j =>
      rcases occurs with ⟨rfl, rfl | ⟨rfl, full, ends⟩⟩
      · exact plain (by simp)
      · exact ⟨by simp, fun server => absurd ⟨server, full, ends⟩ fine⟩
  | finish j =>
      rcases occurs with ⟨rfl, rfl | rfl⟩ <;> exact plain (by simp)
  | close j =>
      rcases occurs with ⟨rfl, rfl | ⟨rfl, -⟩⟩ <;> exact plain (by simp)
  | read | write | writeReturn =>
      rcases occurs with ⟨rfl, rfl⟩
      exact plain (by simp)
  | _ =>
      obtain rfl := occurs
      exact plain (by simp)

/-- What the moves of an unrefused run preserve holds of every stream. -/
theorem unrefused_track {server : Bool} {P : Track → Prop}
    (initially : ∀ k, P (initialTrack server k))
    (preserved : ∀ event t t', event.Fits server → Track.Move event t t' →
      t.server = server → t.Inv → P t → P t')
    {s : Session} (reached : (machine server).ReachableBy Unrefused s) (k : Nat) :
    (s.track k).server = server ∧ P (s.track k) := by
  have all : ∀ k, (s.track k).server = server ∧ (s.track k).Inv ∧ P (s.track k) := by
    refine reached.invariant (P := fun s => ∀ k, (s.track k).server = server ∧
      (s.track k).Inv ∧ P (s.track k)) ?_ ?_
    · rintro s ⟨shape, -, rfl⟩ k
      exact ⟨rfl, Track.inv_initial server k, initially k⟩
    · intro s action s' before held fine taken k
      have moves := step_moves (reachable_sound before) taken k
      refine moves.invariant (P := fun t => t.server = server ∧ t.Inv ∧ P t) ?_ (held k)
      intro event t t' occurs move known
      have fits := fits_of_occurs fine occurs
      rw [show s.server = server from (held k).1] at fits
      exact ⟨(Track.server_move move).trans known.1, Track.inv_move move known.2.1,
        preserved event t t' fits move known.1 known.2.1 known.2.2⟩
  exact ⟨(all k).1, (all k).2.2⟩

theorem reachable_asked {s : Session} (reached : (machine false).ReachableBy Unrefused s)
    (k : Nat) : (s.track k).server = false ∧ (s.track k).Asked := by
  refine unrefused_track ?_ ?_ reached k
  · intro k
    constructor <;> simp [initialTrack, Track.frames, Track.waiting]
  · intro event t t' fits move client inv held
    exact Track.asked_move move fits.1 client inv.flags inv.placed inv.sent held

theorem reachable_answered {s : Session} (reached : (machine true).ReachableBy Unrefused s)
    (k : Nat) : (s.track k).server = true ∧ (s.track k).Answered ∧ (s.track k).Refused := by
  refine unrefused_track (P := fun t => t.Answered ∧ t.Refused) ?_ ?_ reached k
  · intro k
    constructor <;> constructor <;> simp [initialTrack, Track.frames, Track.waiting]
  · intro event t t' fits move server inv held
    exact ⟨Track.answered_move move (fits.2 rfl) server inv.flags inv.placed held.1,
      Track.refused_move move (fits.2 rfl) server inv.placed inv.roles held.2⟩

/-! ## Nothing is refused -/

/-- What a session that follows its peer takes next is never a protocol error. -/
structure Hears (a b : Session) : Prop where
  follows : a.Follows b
  wired : b.Wired
  valid : ∀ f ∈ a.emitted, f.Valid
  inv : ∀ k, (b.track k).Inv
  opening : ∀ f rest, a.emitted = b.processed ++ f :: rest → b.reader.halted = false →
    f.kind = .open → b.server = true ∧ b.lastID < f.id
  known : ∀ f, (b.track f.id).inn ++ [f] <+: (a.track f.id).out → f.kind ≠ .open →
    f.id ≤ b.lastID
  data : ∀ f st, (b.track f.id).inn ++ [f] <+: (a.track f.id).out → f.kind = .data →
    b.lookup f.id = some st → (b.track f.id).progress = .away →
    st.ready = true ∧ st.remoteFIN = false ∧ 0 < st.recvCredit
  control : ∀ f st, (b.track f.id).inn ++ [f] <+: (a.track f.id).out →
    (b.track f.id).st = some st → (b.track f.id).Hearing st →
    ¬ Objects b.server st f.kind f.payload

namespace Hears

variable {a b : Session} (hears : Hears a b)
include hears

theorem not_refuses {h : List Byte} (position : b.reader = .header h)
    (size : h.length = headerSize) : ¬ b.Refuses h := by
  obtain ⟨f, rest, split_, read⟩ := hears.follows.header hears.valid position size
  have next := Track.next_of_emitted split_
  have away : (b.track f.id).progress = .away := by
    simp [track, position, Reader.progress]
  rintro (bad | ⟨hd, found, reason⟩)
  · cases read.symm.trans bad
  · obtain rfl := Option.some.inj (read.symm.trans found)
    rcases reason with ⟨kind, late⟩ | ⟨other, high⟩ | ⟨data, st, live, closed⟩
    · exact late (hears.opening f rest split_ (by rw [position]; rfl) kind)
    · exact absurd (hears.known f next other) (not_le.mpr high)
    · exact closed (hears.data f st next data live away)

theorem not_objects {hd : Header} {live : Bool} {p : List Byte} {st : Stream}
    (position : b.reader = .payload hd live p) (whole : p.length = hd.length)
    (other : hd.kind ≠ .open) (found : b.Finds live hd.id st) :
    ¬ Objects b.server st hd.kind p := by
  have at_ : b.reader.frame? = some (hd, p) := by
    rw [position]
    rfl
  obtain ⟨f, rest, split_, rfl, got⟩ := hears.follows.next hears.wired hears.valid at_
  obtain rfl : p = f.payload := got.eq_of_length whole
  obtain ⟨rfl, listed, here, unclosed⟩ := found
  have progress : (b.track f.id).progress = .control true := by
    simp only [track, trackWith, position, Reader.progress]
    exact if_pos ⟨rfl, other⟩
  refine hears.control f st (Track.next_of_emitted split_) here ?_
  exact ⟨(trackWith_listed _ _ _ _).mpr listed, unclosed, .inr (by rw [progress]; rfl)⟩

/-- No step of the session finds a protocol error. -/
theorem not_causes {action : Action} (sound : b.Sound)
    (fits : ∀ k t, Track.Moves (· = .read) (b.track k) t → ¬ t.Overflows)
    (causes : b.Causes action .protocol) : False := by
  cases action with
  | check =>
      obtain ⟨-, h, position, size, refuses⟩ := causes
      exact hears.not_refuses position size refuses
  | dispatch draw =>
      obtain ⟨-, hd, live, p, st, position, whole, other, found, objects⟩ := causes
      exact hears.not_objects position whole other found objects
  | read k n draw =>
      obtain ⟨-, alive, st, -, refused⟩ := causes
      obtain ⟨t, moves, overflow⟩ := drain_overflow sound.shape alive refused
      exact fits k t moves overflow
  | recv bs e => cases causes
  | writeEnd e => cases causes.1
  | _ => exact causes

/-- A session that has not taken its peer for broken still does not after a step. -/
theorem step_legal {b' : Session} {action : Action} (sound : b.Sound)
    (fits : ∀ k t, Track.Moves (· = .read) (b.track k) t → ¬ t.Overflows)
    (taken : b.step action = some b') (before : .protocol ∉ b.failing ∧ b.err ≠ some .protocol) :
    .protocol ∉ b'.failing ∧ b'.err ≠ some .protocol := by
  constructor
  · intro member
    rcases step_failing sound taken member with old | full | failed | causes
    · exact before.1 old
    · cases full
    · exact before.2 failed
    · exact hears.not_causes sound fits causes
  · rcases step_err sound taken with same | ⟨-, e, failed, cause⟩
    · rw [same]
      exact before.2
    · rw [failed]
      rintro protocol
      obtain rfl := Option.some.inj protocol
      rcases cause with member | closed
      · exact before.1 member
      · cases closed

end Hears

end Session

namespace Pair

section Legal

variable {pair : Pair}
  (reached : machine.ReachableBy (Endpoint.bothSides Session.Unrefused Session.Unrefused) pair)
include reached

theorem sides (k : Nat) : Track.Sides (pair.left.track k) (pair.right.track k) := by
  have client := client_reached reached
  have server := server_reached reached
  have both := linked reached k
  have left := Session.reachable_asked client k
  have right := Session.reachable_answered server k
  exact ⟨both.1, both.2, left.1, right.1, Session.reachable_inv client k,
    Session.reachable_inv server k, left.2, right.2.1, right.2.2⟩

theorem server_hears : Session.Hears pair.left pair.right := by
  have client := client_reached reached
  have server := server_reached reached
  have isServer : pair.right.server = true := (sides reached 0).isServer
  have valid : ∀ f ∈ pair.left.emitted, f.Valid := fun _ => Session.emitted_valid client
  refine ⟨(follows reached).1, Session.reachable_wired server, valid,
    Session.reachable_inv server, ?_, ?_, ?_, ?_⟩
  · intro f rest split_ running kind
    have odd := (valid f (by rw [split_]; simp)).1
    exact ⟨isServer, Session.lastID_lt_of_next (Session.reachable_inOrder client)
      (Session.reachable_inOrder server) isServer running split_ kind odd⟩
  · intro f next other
    obtain ⟨g, member, -⟩ := (sides reached f.id).known_server next other
    rw [← Session.track_above_false]
    by_contra above
    rw [((sides reached f.id).server.placed.new (by simpa using above)).2.2.2.2.1] at member
    cases member
  · intro f st next data live away
    have both := sides reached f.id
    obtain ⟨-, here, unfailed⟩ := Session.lookup_some.mp live
    have unclosed : st.closed = false := by
      by_contra closed
      exact ((both.server.flags st here).shut (by simpa using closed)).1 unfailed
    exact ⟨both.ready_server next (.inl data) here,
      Track.unended_of_data both.client both.server data next here,
      Track.window_of_data both.back both.client both.server data next away here unclosed⟩
  · intro f st next here _
    rw [isServer]
    exact (sides reached f.id).accepted_server next here

theorem client_hears : Session.Hears pair.right pair.left := by
  have client := client_reached reached
  have server := server_reached reached
  have isClient : pair.left.server = false := (sides reached 0).isClient
  have valid : ∀ f ∈ pair.right.emitted, f.Valid := fun _ => Session.emitted_valid server
  refine ⟨(follows reached).2, Session.reachable_wired client, valid,
    Session.reachable_inv client, ?_, ?_, ?_, ?_⟩
  · intro f rest split_ _ kind
    have both := sides reached f.id
    have sent : Has (pair.right.track f.id).out .open := by
      have next := Track.has_of_next (Track.next_of_emitted split_)
      rwa [kind] at next
    cases both.isServer.symm.trans (both.server.roles.opening (Track.has_frames sent))
  · intro f next _
    exact (Session.track_above_false _ _).mp ((sides reached f.id).known_client next)
  · intro f st next data live away
    have both := sides reached f.id
    obtain ⟨listed, here, unfailed⟩ := Session.lookup_some.mp live
    have unclosed : st.closed = false := by
      by_contra closed
      exact ((both.client.flags st here).shut (by simpa using closed)).1 unfailed
    have hearing : (pair.left.track f.id).Hearing st :=
      ⟨(Session.trackWith_listed _ _ _ _).mpr listed, unclosed, .inl unfailed⟩
    exact ⟨both.ready_client next (by rw [data]; exact both.answered.data)
        (by rw [data]; rfl) here hearing,
      Track.unended_of_data both.server both.client data next here,
      Track.window_of_data both.forth both.server both.client data next away here unclosed⟩
  · intro f st next here hearing
    rw [isClient]
    exact (sides reached f.id).accepted_client next here hearing

theorem server_fits (k : Nat) (t : Track)
    (moves : Track.Moves (· = .read) (pair.right.track k) t) : ¬ t.Overflows := by
  have both := sides reached k
  refine both.forth.not_overflows both.back both.client moves ?_
  exact moves.invariant (P := Track.Inv) (fun _ _ _ _ move => Track.inv_move move) both.server

theorem client_fits (k : Nat) (t : Track)
    (moves : Track.Moves (· = .read) (pair.left.track k) t) : ¬ t.Overflows := by
  have both := sides reached k
  refine both.back.not_overflows both.forth both.server moves ?_
  exact moves.invariant (P := Track.Inv) (fun _ _ _ _ move => Track.inv_move move) both.client

/--
A client and a server session never take each other for broken: in every run in which
no OPEN, OPENED or FIN was refused by a full control queue and no call on the server was
cut short with OPENED still queued, every frame that is read is legal for the state it
finds, and neither session fails with a protocol error.
-/
theorem frames_legal :
    (.protocol ∉ pair.left.failing ∧ pair.left.err ≠ some .protocol) ∧
      .protocol ∉ pair.right.failing ∧ pair.right.err ≠ some .protocol := by
  refine reached.invariant (P := fun pair : Pair =>
    (.protocol ∉ pair.left.failing ∧ pair.left.err ≠ some .protocol) ∧
      .protocol ∉ pair.right.failing ∧ pair.right.err ≠ some .protocol) ?_ ?_
  · rintro pair ⟨⟨_, -, left⟩, ⟨_, -, right⟩, -, -⟩
    rw [left, right]
    simp [Session.new]
  · intro pair action next before held _ moved
    rcases Endpoint.join_step_cases moved with
      ⟨own, after, _, _, -, stepped, -, rfl⟩ | ⟨own, after, _, _, -, stepped, -, rfl⟩
    · have sound := Session.reachable_sound (client_reached before)
      exact ⟨(client_hears before).step_legal sound (client_fits before) stepped held.1, held.2⟩
    · have sound := Session.reachable_sound (server_reached before)
      exact ⟨held.1, (server_hears before).step_legal sound (server_fits before) stepped held.2⟩

end Legal

instance (pair : Pair) (action : Session.Action ⊕ Session.Action) :
    Decidable (Endpoint.bothSides Session.Unrefused Session.Unrefused pair action) :=
  match action with
  | .inl own => inferInstanceAs (Decidable (pair.left.Unrefused own))
  | .inr own => inferInstanceAs (Decidable (pair.right.Unrefused own))

theorem frames_legal_opening : ∃ pair,
    machine.runBy (Endpoint.bothSides Session.Unrefused Session.Unrefused) new
        Session.opening = some pair ∧
      pair.left.processed = [⟨.opened, 1, []⟩] ∧
      (.protocol ∉ pair.left.failing ∧ pair.left.err ≠ some .protocol) ∧
        .protocol ∉ pair.right.failing ∧ pair.right.err ≠ some .protocol := by
  have both : (machine.runBy (Endpoint.bothSides Session.Unrefused Session.Unrefused) new
      Session.opening).map (fun pair => pair.left.processed) = some [⟨.opened, 1, []⟩] := by
    decide +kernel
  rcases Option.map_eq_some_iff.mp both with ⟨pair, ran, same⟩
  exact ⟨pair, ran, same, frames_legal (Machine.runBy_reachableBy (.start start_new) ran)⟩

end Pair

end Veil.Mux
