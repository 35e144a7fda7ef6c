import Veil.Mux.Signals

/-!
# A session on the wire

The bytes a session has read spell the frames it has processed, followed by the
part of a frame it is reading.  The bytes it has handed to the transport are an
initial part of the frames it has put into batches.  Two sessions joined by
pipes therefore agree on the frames: what one has processed is an initial part
of what the other has emitted, and the frame being read is the next of them.
-/

namespace Veil.Mux

open Veil.Lib

/-- The read loop is inside a DATA frame of the stream. -/
def Progress.inData : Progress → Bool
  | .checked _ | .receiving _ _ | .stuck _ _ => true
  | _ => false

namespace Reader

/-- The bytes read of a frame that has not been processed. -/
def pending : Reader → List Byte
  | .header h => h
  | .payload hd _ p => hd.bytes ++ p
  | .chunk hd _ => hd.bytes
  | .receiving hd got _ => hd.bytes ++ got
  | .stopped _ last => last.pending

/-- The header of the frame being read, and the part of its payload read so far. -/
def frame? : Reader → Option (Header × List Byte)
  | .header _ => none
  | .payload hd _ p => some (hd, p)
  | .chunk hd _ => some (hd, [])
  | .receiving hd got _ => some (hd, got)
  | .stopped _ last => last.frame?

/--
The header read is valid and its payload has not been exceeded.  The read loop
never stops between a DATA header and the payload behind it.
-/
def Framed : Reader → Prop
  | .header _ | .stopped _ (.header _) => True
  | .payload hd _ p | .stopped _ (.payload hd _ p) =>
      hd.Valid ∧ hd.kind ≠ .data ∧ p.length ≤ hd.length
  | .chunk hd _ => hd.Valid ∧ hd.kind = .data
  | .receiving hd got _ | .stopped _ (.receiving hd got _) =>
      hd.Valid ∧ hd.kind = .data ∧ got.length ≤ hd.length
  | .stopped _ _ => False

theorem Framed.valid {reader : Reader} (framed : reader.Framed) {hd : Header} {got : List Byte}
    (position : reader.frame? = some (hd, got)) : hd.Valid ∧ got.length ≤ hd.length := by
  unfold Framed at framed
  split at framed
  case h_8 => exact framed.elim
  all_goals cases position
  · exact ⟨framed.1, framed.2.2⟩
  · exact ⟨framed.1, framed.2.2⟩
  · exact ⟨framed.1, Nat.zero_le _⟩
  · exact ⟨framed.1, framed.2.2⟩
  · exact ⟨framed.1, framed.2.2⟩

/-- A read loop inside a DATA frame of stream `k`, and what it has read of it. -/
theorem Framed.data {reader : Reader} (framed : reader.Framed) {k : Nat}
    (inside : (reader.progress k).inData = true) :
    ∃ hd, reader.frame? = some (hd, (reader.progress k).got) ∧ hd.kind = .data ∧ hd.id = k := by
  unfold progress at inside ⊢
  split at inside
  · split_ifs at inside <;> cases inside
  · split_ifs at inside ⊢ with own
    · exact ⟨_, rfl, framed.2, own⟩
    · cases inside
  · split_ifs at inside ⊢ with own
    · exact ⟨_, rfl, framed.2.1, own⟩
    · cases inside
  · split_ifs at inside ⊢ with own
    · exact ⟨_, rfl, framed.2.1, own⟩
    · cases inside
  · cases inside

/-- A DATA frame being read is one the track of its stream counts. -/
theorem Framed.inData {reader : Reader} (framed : reader.Framed) {hd : Header}
    {got : List Byte} (position : reader.frame? = some (hd, got)) (data : hd.kind = .data) :
    (reader.progress hd.id).inData = true := by
  unfold Framed at framed
  split at framed
  case h_8 => exact framed.elim
  all_goals cases position
  · exact (framed.2.1 data).elim
  · exact (framed.2.1 data).elim
  · simp [progress, Progress.inData]
  · simp [progress, Progress.inData]
  · simp [progress, Progress.inData]

@[simp]
theorem pending_discardFor (reader : Reader) (k : Nat) :
    (reader.discardFor k).pending = reader.pending := by
  cases reader <;> rfl

theorem framed_discardFor {reader : Reader} (framed : reader.Framed) (k : Nat) :
    (reader.discardFor k).Framed := by
  cases reader with
  | stopped _ last => exact framed
  | header | payload | chunk | receiving => exact framed

/-- What has been read of an unfinished frame begins with its header. -/
theorem pending_eq {reader : Reader} {hd : Header} {got : List Byte}
    (position : reader.frame? = some (hd, got)) : reader.pending = hd.bytes ++ got := by
  induction reader with
  | header => cases position
  | payload | receiving =>
      cases position
      rfl
  | chunk =>
      cases position
      exact (List.append_nil _).symm
  | stopped _ last induction => exact induction position

end Reader

/-- The bytes of the current batch that the transport has not taken yet. -/
def Writer.unsent : Writer → List Byte
  | .writing b => b.unsent
  | _ => []

namespace Session

/-- What has been read and sent spells what has been processed and emitted. -/
structure Wired (s : Session) : Prop where
  preamble : s.preamble = []
  framed : s.reader.Framed
  received : s.received = encodeAll s.processed ++ s.reader.pending
  valid : ∀ f ∈ s.processed, f.Valid
  sent : ∃ lost, encodeAll s.emitted = s.sent ++ (s.writer.unsent ++ lost) ∧
    (s.writer ≠ .stopped → lost = [])

namespace Wired

variable {s s' : Session}

/-- Nothing the transport sees has changed. -/
theorem keep (wired : s.Wired) (preamble : s'.preamble = s.preamble)
    (pending : s'.reader.pending = s.reader.pending)
    (framed : s.reader.Framed → s'.reader.Framed)
    (received : s'.received = s.received) (processed : s'.processed = s.processed)
    (emitted : s'.emitted = s.emitted) (sent : s'.sent = s.sent)
    (writer : s'.writer = s.writer) : s'.Wired := by
  refine ⟨preamble.trans wired.preamble, framed wired.framed, ?_, ?_, ?_⟩
  · rw [received, processed, pending]
    exact wired.received
  · rw [processed]
    exact wired.valid
  · rw [emitted, sent, writer]
    exact wired.sent

theorem of_kept (wired : s.Wired) (kept : Kept s s') : s'.Wired := by
  have same : s'.reader.pending = s.reader.pending ∧
      (s.reader.Framed → s'.reader.Framed) := by
    rcases kept.reader with same | ⟨k, same⟩
    · rw [same]
      exact ⟨rfl, fun framed => framed⟩
    · rw [same]
      exact ⟨Reader.pending_discardFor _ _, fun framed => Reader.framed_discardFor framed k⟩
  exact wired.keep kept.preamble same.1 same.2 kept.received kept.processed kept.emitted
    kept.sent kept.writer

/-- The reader has moved on in the frame it is reading. -/
theorem read (wired : s.Wired) {w : List Byte} (preamble : s'.preamble = s.preamble)
    (framed : s'.reader.Framed) (received : s'.received = s.received ++ w)
    (pending : s'.reader.pending = s.reader.pending ++ w)
    (processed : s'.processed = s.processed)
    (emitted : s'.emitted = s.emitted) (sent : s'.sent = s.sent)
    (writer : s'.writer = s.writer) : s'.Wired := by
  refine ⟨preamble.trans wired.preamble, framed, ?_, ?_, ?_⟩
  · rw [received, processed, pending, wired.received, List.append_assoc]
  · rw [processed]
    exact wired.valid
  · rw [emitted, sent, writer]
    exact wired.sent

/-- The frame being read has been completed. -/
theorem finish (wired : s.Wired) {w : List Byte} {f : Frame}
    (preamble : s'.preamble = s.preamble) (reader : s'.reader = .header [])
    (received : s'.received = s.received ++ w)
    (whole : f.bytes = s.reader.pending ++ w) (valid : f.Valid)
    (processed : s'.processed = s.processed ++ [f])
    (emitted : s'.emitted = s.emitted) (sent : s'.sent = s.sent)
    (writer : s'.writer = s.writer) : s'.Wired := by
  refine ⟨preamble.trans wired.preamble, ?_, ?_, ?_, ?_⟩
  · rw [reader]
    trivial
  · rw [received, processed, reader, wired.received, encodeAll_append, encodeAll_singleton,
      whole, List.append_assoc, List.append_assoc]
    simp [Reader.pending]
  · intro g member
    rw [processed, List.mem_append, List.mem_singleton] at member
    rcases member with old | rfl
    · exact wired.valid g old
    · exact valid
  · rw [emitted, sent, writer]
    exact wired.sent

end Wired

theorem recv_wired {s s' : Session} {bs : List Byte} {e : Option Err} (sound : s.Sound)
    (wired : s.Wired) (taken : s.recv bs e = some s') : s'.Wired := by
  have fits := sound.reading
  have framed := wired.framed
  unfold recv at taken
  split at taken
  · cases taken
  simp only at taken
  split at taken
  · next h position =>
      rw [position] at framed fits
      have pending : s.reader.pending = h := by rw [position]; rfl
      rcases recvHeader_cases taken with ⟨-, -, ⟨-, rfl⟩ | ⟨-, cause, -, rfl⟩⟩
      · exact wired.read (w := bs) rfl trivial rfl (by rw [pending]; rfl)
          rfl rfl rfl rfl
      · exact wired.read (w := bs) rfl trivial rfl (by rw [pending]; rfl)
          rfl rfl rfl rfl
  · next hd live p position =>
      rw [position] at framed fits
      have pending : s.reader.pending ++ bs = hd.bytes ++ (p ++ bs) := by
        rw [position, Reader.pending, List.append_assoc]
      rcases recvPayload_cases taken with ⟨-, short, ⟨-, -, rfl⟩ | ⟨cause, -, rfl⟩⟩
      · exact wired.read (w := bs) rfl ⟨fits.1, fits.2.1, short⟩ rfl pending.symm
          rfl rfl rfl rfl
      · exact wired.read (w := bs) rfl ⟨fits.1, fits.2.1, short⟩ rfl pending.symm
          rfl rfl rfl rfl
  · next hd got discard position =>
      rw [position] at framed fits
      have pending : s.reader.pending ++ bs = hd.bytes ++ (got ++ bs) := by
        rw [position, Reader.pending, List.append_assoc]
      have kept : ∀ complete, Kept (s.hears bs)
          ((s.hears bs).published hd.id bs discard complete) :=
        fun complete => (published_kept _ _ _ _ _).1
      rcases recvData_cases (s := s.hears bs) taken with
        ⟨short, ⟨-, whole, rfl⟩ | ⟨-, -, rfl⟩ | ⟨cause, -, rfl⟩⟩
      · have kept := kept true
        have same : (⟨.data, hd.id, (got ++ bs).length⟩ : Header) = hd := by
          rw [whole, ← fits.2.1]
        refine wired.finish (w := bs) (f := ⟨.data, hd.id, got ++ bs⟩) kept.preamble rfl
          kept.received ?_ ?_ ?_ kept.emitted kept.sent kept.writer
        · rw [pending, Frame.bytes, Frame.header, same]
        · rw [Frame.Valid, Frame.header, same]
          exact fits.1
        · exact congrArg (· ++ _) kept.processed
      · have kept := kept false
        exact wired.read (w := bs) kept.preamble ⟨fits.1, fits.2.1, short⟩ kept.received
          pending.symm kept.processed kept.emitted kept.sent kept.writer
      · have kept := kept true
        exact wired.read (w := bs) kept.preamble ⟨fits.1, fits.2.1, short⟩ kept.received
          pending.symm kept.processed kept.emitted kept.sent kept.writer
  · cases taken

theorem check_wired {s s' : Session} (wired : s.Wired) (taken : s.check = some s') :
    s'.Wired := by
  rcases check_cases taken with ⟨h, position, size, ⟨-, rfl⟩ | ⟨hd, read, outcome⟩⟩
  · exact wired.keep rfl (by rw [position]; rfl) (fun _ => trivial) rfl rfl rfl rfl rfl
  · rcases readHeader_sound size read with ⟨rfl, valid⟩
    have pending : s.reader.pending ++ [] = hd.bytes := by
      rw [position, List.append_nil]
      rfl
    rcases outcome with ⟨data, -, -, rfl⟩ | ⟨data, -, st, -, -, -, -, rfl⟩ | ⟨other, -, -, rfl⟩
    · exact wired.read (w := []) rfl ⟨valid, data⟩ (List.append_nil _).symm pending.symm
        rfl rfl rfl rfl
    · exact wired.read (w := []) rfl ⟨valid, data⟩ (List.append_nil _).symm pending.symm
        rfl rfl rfl rfl
    · refine wired.read (w := []) rfl ⟨valid, other, Nat.zero_le _⟩ (List.append_nil _).symm ?_
        rfl rfl rfl rfl
      rw [pending]
      exact List.append_nil _

theorem takeChunk_wired {s s' : Session} (wired : s.Wired) (taken : s.takeChunk = some s') :
    s'.Wired := by
  rcases takeChunk_cases taken with ⟨hd, live, position, outcome⟩
  have started : ∀ {discard}, s.reader.Framed → (Reader.receiving hd [] discard).Framed := by
    rw [position]
    exact fun framed => ⟨framed.1, framed.2, Nat.zero_le _⟩
  rcases outcome with ⟨st, -, -, -, -, rfl⟩ | ⟨-, rfl⟩
  · refine wired.keep rfl ?_ started rfl rfl rfl rfl rfl
    rw [position]
    exact List.append_nil _
  · refine wired.keep rfl ?_ started rfl rfl rfl rfl rfl
    rw [position]
    exact List.append_nil _

/-- What the admission of an OPEN leaves alone. -/
theorem admission_same (s : Session) (id : Nat) (p : List Byte) (draw : Nat) :
    (s.admission id p draw).1.preamble = s.preamble ∧
      (s.admission id p draw).1.reader = s.reader ∧
      (s.admission id p draw).1.received = s.received ∧
      (s.admission id p draw).1.processed = s.processed ∧
      (s.admission id p draw).1.emitted = s.emitted ∧
      (s.admission id p draw).1.sent = s.sent ∧
      (s.admission id p draw).1.writer = s.writer := by
  rcases admission_cases s id p draw with
    ⟨-, ⟨-, outcome⟩ | ⟨e, -, outcome⟩⟩ | ⟨-, outcome⟩ <;>
    rw [outcome] <;> exact ⟨rfl, rfl, rfl, rfl, rfl, rfl, rfl⟩

theorem afterFrame_kept (s : Session) (k : Nat) (st : Stream) (t : Kind) (p : List Byte) :
    Kept s (s.afterFrame k st t p) := by
  cases t with
  | opened | fin | finished => exact (Kept.refl s).set _ _
  | failed | reset => exact Kept.shutStream s k st _
  | credit => exact ((Kept.refl s).set _ _).update _ s.controls true rfl
  | «open» | data => exact .refl s

theorem dispatch_wired {s s' : Session} {draw : Nat} (sound : s.Sound) (wired : s.Wired)
    (taken : s.dispatch draw = some s') : s'.Wired := by
  rcases dispatch_cases taken with ⟨hd, live, p, position, whole, outcome⟩
  have fits := sound.reading
  rw [position] at fits
  have header : (⟨hd.kind, hd.id, p.length⟩ : Header) = hd := by rw [whole]
  have bytes : (⟨hd.kind, hd.id, p⟩ : Frame).bytes = s.reader.pending ++ [] := by
    rw [position, Frame.bytes, Frame.header, header, List.append_nil]
    rfl
  have valid : (⟨hd.kind, hd.id, p⟩ : Frame).Valid := by
    rw [Frame.Valid, Frame.header, header]
    exact fits.1
  have refused : ∀ {after : Session} (cause : Err), after.preamble = s.preamble →
      after.received = s.received → after.processed = s.processed →
      after.emitted = s.emitted → after.sent = s.sent → after.writer = s.writer →
      (after.stopReader cause (.payload hd live p)).Wired := by
    intro after cause preamble received processed emitted sent writer
    exact wired.keep preamble (by rw [position]; rfl) (by rw [position]; exact id) received
      processed emitted sent writer
  have accepted : ∀ {after : Session}, after.preamble = s.preamble →
      after.received = s.received → after.processed = s.processed →
      after.emitted = s.emitted → after.sent = s.sent → after.writer = s.writer →
      (after.consumed ⟨hd.kind, hd.id, p⟩).Wired := by
    intro after preamble received processed emitted sent writer
    exact wired.finish (w := []) preamble rfl (received.trans (List.append_nil _).symm) bytes
      valid (congrArg (· ++ _) processed) emitted sent writer
  rcases admission_same s hd.id p draw with
    ⟨preamble, -, received, processed, emitted, sent, writer⟩
  rcases outcome with ⟨-, ⟨-, rfl⟩ | ⟨e, -, rfl⟩⟩ | ⟨-, -, rfl⟩ |
    ⟨-, st, -, ⟨-, rfl⟩ | ⟨-, rfl⟩⟩
  · exact accepted preamble received processed emitted sent writer
  · exact refused e preamble received processed emitted sent writer
  · exact accepted rfl rfl rfl rfl rfl rfl
  · exact refused .protocol rfl rfl rfl rfl rfl rfl
  · have kept := afterFrame_kept s hd.id st hd.kind p
    exact accepted kept.preamble kept.received kept.processed kept.emitted kept.sent kept.writer

/-- A batch has been assembled: its frames are emitted and none of their bytes sent. -/
theorem batch_wired {s s' : Session} {d : Draws} (sound : s.Sound) (wired : s.Wired)
    (taken : s.batch d = some s') : s'.Wired := by
  rcases batch_cases sound.shape taken with ⟨running, ⟨-, rfl⟩ | ⟨-, -, -, rfl⟩ |
    ⟨-, sentControls, rest, a, work, more, padding, -, frames, -, -, emits, rfl⟩⟩
  · refine { wired with sent := ?_ }
    rcases wired.sent with ⟨lost, spelled, -⟩
    rw [running] at spelled
    exact ⟨lost, spelled, fun moving => (moving rfl).elim⟩
  · refine { wired with sent := ?_ }
    rcases wired.sent with ⟨lost, spelled, none_⟩
    rw [running] at spelled none_
    exact ⟨lost, spelled, fun _ => none_ (by simp)⟩
  · have same := emits.emitted
    rcases same.frames with ⟨new, added, emitted, -⟩
    rcases wired.sent with ⟨lost, spelled, none_⟩
    rw [running] at spelled none_
    rw [none_ (by simp)] at spelled
    refine ⟨same.preamble, ?_, ?_, ?_, [], ?_, fun _ => rfl⟩
    · rw [show (_ : Session).reader = s.reader from same.reader]
      exact wired.framed
    · rw [show (_ : Session).received = s.received from same.received,
        show (_ : Session).processed = s.processed from same.processed,
        show (_ : Session).reader = s.reader from same.reader]
      exact wired.received
    · rw [show (_ : Session).processed = s.processed from same.processed]
      exact wired.valid
    · have before : encodeAll s.emitted = s.sent := by
        simpa [Writer.unsent] using spelled
      have sent : work.1.sent = s.sent := same.sent
      simp only [Writer.unsent, emitted, added, sent, wired.preamble, frames, withControls,
        encodeAll_append, before, List.nil_append, List.append_nil, List.append_assoc]

theorem send_wired {s s' : Session} {n : Nat} (wired : s.Wired)
    (taken : s.send n = some s') : s'.Wired := by
  unfold send at taken
  split at taken
  next b writing =>
    split at taken
    · cases taken
    · cases taken
      refine { wired with sent := ?_ }
      rcases wired.sent with ⟨lost, spelled, none_⟩
      rw [writing] at spelled none_
      refine ⟨lost, ?_, fun _ => none_ (by simp)⟩
      rw [spelled]
      simp only [Writer.unsent, List.append_assoc]
      rw [← List.append_assoc (b.unsent.take n), List.take_append_drop]
  · cases taken

theorem writeEnd_wired {s s' : Session} {e : Option Err} (wired : s.Wired)
    (taken : s.writeEnd e = some s') : s'.Wired := by
  rcases wired.sent with ⟨lost, spelled, none_⟩
  rcases writeEnd_cases taken with ⟨b, writing, ⟨-, all, rfl⟩ | ⟨cause, -, -, -, rfl⟩⟩
  · refine { wired with sent := ?_ }
    rw [writing] at spelled none_
    rw [Writer.unsent, all, none_ (by simp)] at spelled
    have quiet : (if b.more then Writer.running else Writer.parked).unsent = [] := by
      cases b.more <;> rfl
    refine ⟨[], ?_, fun _ => rfl⟩
    exact spelled.trans (by rw [← quiet]; rfl)
  · refine { wired with sent := ?_ }
    exact ⟨s.writer.unsent ++ lost, spelled, fun moving => (moving rfl).elim⟩

theorem fail_wired {s : Session} (e : Err) (wired : s.Wired) : (s.fail e).Wired := by
  unfold fail
  split
  · exact wired
  · exact wired.keep rfl rfl id rfl rfl rfl rfl rfl

theorem open_wired {s : Session} (wired : s.Wired) (metadata : List Byte) (draw : Nat) :
    (s.open metadata draw).1.Wired := by
  rcases s.open_cases metadata draw with
    same | ⟨-, -, -, -, -, -, ⟨-, outcome⟩ | ⟨-, outcome⟩⟩
  · rwa [same]
  · rw [outcome]
    exact wired.keep rfl rfl id rfl rfl rfl rfl rfl
  · rw [outcome]
    exact wired.keep rfl rfl id rfl rfl rfl rfl rfl

theorem accept_wired {s s' : Session} {result : Option Nat} (wired : s.Wired)
    (taken : s.accept = some (s', result)) : s'.Wired := by
  unfold accept at taken
  split at taken
  · cases taken
  · cases taken
    exact wired.keep rfl rfl id rfl rfl rfl rfl rfl

theorem step_wired {s s' : Session} {action : Action} (sound : s.Sound) (wired : s.Wired)
    (taken : s.step action = some s') : s'.Wired := by
  cases action with
  | «open» metadata draw =>
      cases taken
      exact open_wired wired metadata draw
  | accept =>
      rcases Option.map_eq_some_iff.mp taken with ⟨⟨_, result⟩, made, rfl⟩
      exact accept_wired wired made
  | respond k code =>
      rcases Option.map_eq_some_iff.mp taken with ⟨⟨_, result⟩, made, rfl⟩
      exact wired.of_kept (respond_kept made)
  | callReturn k wake =>
      rcases Option.map_eq_some_iff.mp taken with ⟨⟨_, result⟩, made, rfl⟩
      exact wired.of_kept (callReturn_kept made)
  | read k n draw =>
      rcases Option.map_eq_some_iff.mp taken with ⟨⟨_, result⟩, made, rfl⟩
      exact wired.of_kept (read_kept made)
  | write k p =>
      rcases Option.map_eq_some_iff.mp taken with ⟨⟨_, result⟩, made, rfl⟩
      exact wired.of_kept (write_kept made)
  | writeReturn k =>
      rcases Option.map_eq_some_iff.mp taken with ⟨⟨_, n, result⟩, made, rfl⟩
      exact wired.of_kept (writeReturn_kept made)
  | closeWrite k =>
      rcases Option.map_eq_some_iff.mp taken with ⟨⟨_, result⟩, made, rfl⟩
      exact wired.of_kept (closeWrite_kept made)
  | finish k =>
      rcases Option.map_eq_some_iff.mp taken with ⟨⟨_, result⟩, made, rfl⟩
      exact wired.of_kept (finish_kept made)
  | close k => exact wired.of_kept (close_kept taken)
  | closeSession =>
      cases taken
      exact fail_wired .closed wired
  | cancel =>
      simp only [step] at taken
      split at taken
      · cases taken
        exact wired.keep rfl rfl id rfl rfl rfl rfl rfl
      · cases taken
  | fail i =>
      simp only [step] at taken
      split at taken
      · cases taken
      · cases taken
        exact fail_wired _ (wired.keep rfl rfl id rfl rfl rfl rfl rfl)
  | recv bs e => exact recv_wired sound wired taken
  | check => exact check_wired wired taken
  | takeChunk => exact takeChunk_wired wired taken
  | dispatch draw => exact dispatch_wired sound wired taken
  | wakeUp =>
      rcases wired.sent with ⟨lost, spelled, none_⟩
      simp only [step, wakeUp] at taken
      split at taken
      next parked =>
        rw [parked] at spelled none_
        have spelled : encodeAll s.emitted = s.sent ++ ([] ++ lost) := spelled
        split at taken
        · cases taken
          exact { wired with sent := ⟨lost, spelled, fun moving => (moving rfl).elim⟩ }
        · split at taken
          · cases taken
            exact { wired with sent := ⟨lost, spelled, fun _ => none_ (by simp)⟩ }
          · cases taken
      · cases taken
  | batch draws => exact batch_wired sound wired taken
  | send n => exact send_wired wired taken
  | writeEnd e => exact writeEnd_wired wired taken

theorem reachable_wired {server : Bool} {ok : Session → Action → Prop} {s : Session}
    (reached : (machine server).ReachableBy ok s) : s.Wired := by
  refine reached.invariant (P := Wired) ?_
    fun _ _ _ before wired _ taken => step_wired (reachable_sound before) wired taken
  rintro s ⟨shape, -, rfl⟩
  exact ⟨rfl, trivial, rfl, by simp [Session.new], [], rfl, fun _ => rfl⟩

/-- Every frame put into a batch is one the peer's header check accepts. -/
theorem emitted_valid {server : Bool} {ok : Session → Action → Prop} {s : Session}
    (reached : (machine server).ReachableBy ok s) {f : Frame} (member : f ∈ s.emitted) :
    f.Valid := by
  have formed := (reachable_inv reached f.id).formed
  refine formed.valid (List.mem_append_left _ ?_)
  exact List.mem_filter.mpr ⟨member, by simp⟩

/-! ## Two sessions on a pair of pipes -/

/-- A transport read is recorded, and nothing is sent by it. -/
theorem recv_traffic {s s' : Session} {bs : List Byte} {e : Option Err}
    (taken : s.recv bs e = some s') : s'.received = s.received ++ bs ∧ s'.sent = s.sent := by
  unfold recv at taken
  split at taken
  · cases taken
  simp only at taken
  split at taken
  · rcases recvHeader_cases taken with ⟨-, -, ⟨-, rfl⟩ | ⟨-, cause, -, rfl⟩⟩ <;>
      exact ⟨rfl, rfl⟩
  · rcases recvPayload_cases taken with ⟨-, -, ⟨-, -, rfl⟩ | ⟨cause, -, rfl⟩⟩ <;>
      exact ⟨rfl, rfl⟩
  · next hd got discard position =>
      have kept : ∀ complete, Kept (s.hears bs)
          ((s.hears bs).published hd.id bs discard complete) :=
        fun complete => (published_kept _ _ _ _ _).1
      rcases recvData_cases (s := s.hears bs) taken with
        ⟨-, ⟨-, -, rfl⟩ | ⟨-, -, rfl⟩ | ⟨cause, -, rfl⟩⟩ <;>
        exact ⟨(kept _).received, (kept _).sent⟩
  · cases taken

theorem fail_traffic (s : Session) (e : Err) :
    (s.fail e).received = s.received ∧ (s.fail e).sent = s.sent := by
  unfold fail
  split <;> exact ⟨rfl, rfl⟩

theorem Kept.traffic {s s' : Session} (kept : Kept s s') :
    s'.received = s.received ∧ s'.sent = s.sent :=
  ⟨kept.received, kept.sent⟩

/-- Only reads and writes of the transport are recorded in its histories. -/
theorem step_traffic {s s' : Session} {action : Action} (valid : s.shape.Valid)
    (taken : s.step action = some s') (other : ∀ bs e, action ≠ .recv bs e)
    (other' : ∀ n, action ≠ .send n) : s'.received = s.received ∧ s'.sent = s.sent := by
  cases action with
  | «open» metadata draw =>
      cases taken
      rcases s.open_cases metadata draw with
        same | ⟨-, -, -, -, -, -, ⟨-, outcome⟩ | ⟨-, outcome⟩⟩
      · rw [same]
        exact ⟨rfl, rfl⟩
      · rw [outcome]
        exact ⟨rfl, rfl⟩
      · rw [outcome]
        exact ⟨rfl, rfl⟩
  | accept =>
      rcases Option.map_eq_some_iff.mp taken with ⟨⟨_, result⟩, made, rfl⟩
      unfold accept at made
      split at made <;> cases made
      exact ⟨rfl, rfl⟩
  | respond k code =>
      rcases Option.map_eq_some_iff.mp taken with ⟨⟨_, result⟩, made, rfl⟩
      exact (respond_kept made).traffic
  | callReturn k wake =>
      rcases Option.map_eq_some_iff.mp taken with ⟨⟨_, result⟩, made, rfl⟩
      exact (callReturn_kept made).traffic
  | read k n draw =>
      rcases Option.map_eq_some_iff.mp taken with ⟨⟨_, result⟩, made, rfl⟩
      exact (read_kept made).traffic
  | write k p =>
      rcases Option.map_eq_some_iff.mp taken with ⟨⟨_, result⟩, made, rfl⟩
      exact (write_kept made).traffic
  | writeReturn k =>
      rcases Option.map_eq_some_iff.mp taken with ⟨⟨_, n, result⟩, made, rfl⟩
      exact (writeReturn_kept made).traffic
  | closeWrite k =>
      rcases Option.map_eq_some_iff.mp taken with ⟨⟨_, result⟩, made, rfl⟩
      exact (closeWrite_kept made).traffic
  | finish k =>
      rcases Option.map_eq_some_iff.mp taken with ⟨⟨_, result⟩, made, rfl⟩
      exact (finish_kept made).traffic
  | close k => exact (close_kept taken).traffic
  | closeSession =>
      cases taken
      exact fail_traffic s .closed
  | cancel =>
      simp only [step] at taken
      split at taken <;> cases taken
      exact ⟨rfl, rfl⟩
  | fail i =>
      simp only [step] at taken
      split at taken <;> cases taken
      exact fail_traffic _ _
  | recv bs e => exact (other bs e rfl).elim
  | check =>
      rcases check_cases taken with ⟨h, -, -, ⟨-, rfl⟩ | ⟨hd, -, ⟨-, -, -, rfl⟩ |
        ⟨-, -, st, -, -, -, -, rfl⟩ | ⟨-, -, -, rfl⟩⟩⟩ <;> exact ⟨rfl, rfl⟩
  | takeChunk =>
      rcases takeChunk_cases taken with ⟨hd, live, -, ⟨st, -, -, -, -, rfl⟩ | ⟨-, rfl⟩⟩ <;>
        exact ⟨rfl, rfl⟩
  | dispatch draw =>
      rcases dispatch_cases taken with ⟨hd, live, p, -, -, outcome⟩
      rcases admission_same s hd.id p draw with ⟨-, -, received, -, -, sent, -⟩
      rcases outcome with ⟨-, ⟨-, rfl⟩ | ⟨e, -, rfl⟩⟩ | ⟨-, -, rfl⟩ |
        ⟨-, st, -, ⟨-, rfl⟩ | ⟨-, rfl⟩⟩
      · exact ⟨received, sent⟩
      · exact ⟨received, sent⟩
      · exact ⟨rfl, rfl⟩
      · exact ⟨rfl, rfl⟩
      · exact (afterFrame_kept s hd.id st hd.kind p).traffic
  | wakeUp =>
      simp only [step, wakeUp] at taken
      split at taken
      · split at taken
        · cases taken
          exact ⟨rfl, rfl⟩
        · split at taken <;> cases taken
          exact ⟨rfl, rfl⟩
      · cases taken
  | batch draws =>
      rcases batch_cases valid taken with ⟨-, ⟨-, rfl⟩ | ⟨-, -, -, rfl⟩ |
        ⟨-, sentControls, rest, a, work, more, padding, -, -, -, -, emits, rfl⟩⟩
      · exact ⟨rfl, rfl⟩
      · exact ⟨rfl, rfl⟩
      · exact ⟨emits.emitted.received, emits.emitted.sent⟩
  | send n => exact (other' n rfl).elim
  | writeEnd e =>
      rcases writeEnd_cases taken with ⟨b, -, ⟨-, -, rfl⟩ | ⟨cause, -, -, -, rfl⟩⟩ <;>
        exact ⟨rfl, rfl⟩

/-- The histories of a session record exactly its traffic. -/
theorem endpoint_lawful (server : Bool) : (endpoint server).Lawful where
  initially := by
    rintro s ⟨shape, -, rfl⟩
    exact ⟨rfl, rfl⟩
  recorded := by
    intro s action s' reached taken
    have taken : s.step action = some s' := taken
    have valid := (reachable_sound reached).shape
    cases action with
    | recv bs e => exact recv_traffic taken
    | send n =>
        simp only [step, send] at taken
        simp only [endpoint, traffic]
        split at taken
        next b writing =>
          split at taken
          · cases taken
          · cases taken
            exact ⟨rfl, rfl⟩
        · cases taken
    | _ => exact step_traffic valid taken (by simp) (by simp)

end Session

end Veil.Mux
