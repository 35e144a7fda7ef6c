import Veil.Mux.Wire

/-!
# Where failures come from

A session fails with the first error that one of its goroutines brings to
`fail`.  Every such error has a cause in the step that found it: a full control
queue, a transport error, or one of the three places that report a protocol
error.
-/

namespace Veil.Mux

open Veil.Lib

namespace Session

/-- Why a step makes a goroutine fail the session with an error. -/
def Causes (s : Session) (action : Action) (e : Err) : Prop :=
  match action with
  | .check =>
      e = .protocol ∧ ∃ h, s.reader = .header h ∧ h.length = headerSize ∧ s.Refuses h
  | .dispatch _ =>
      e = .protocol ∧ ∃ hd live p st, s.reader = .payload hd live p ∧
        p.length = hd.length ∧ hd.kind ≠ .open ∧ s.Finds live hd.id st ∧
        Objects s.server st hd.kind p
  | .read k n draw =>
      e = .protocol ∧ s.err = none ∧ ∃ st, s.objs k = some st ∧
        (drain k draw st.unread.length n [] s).2.2 = some .protocol
  | .recv _ _ => e.ofTransport = true
  | .writeEnd _ => e.ofTransport = true ∧ e ≠ .eof
  | _ => False

/-- After the session has failed, a refund is refused with the session's error. -/
theorem drain_err {k : Nat} {draw : Nat → Nat} {fuel room : Nat} {got : List Byte}
    {s : Session} {e e' : Err} (failed : s.err = some e)
    (refused : (drain k draw fuel room got s).2.2 = some e') : e' = e := by
  induction fuel generalizing room got s with
  | zero => cases refused
  | succ fuel induction =>
      rw [drain] at refused
      split at refused
      · cases refused
      next st here =>
      split at refused
      · cases refused
      next c rest front =>
      split at refused
      · cases refused
      simp only at refused
      split at refused
      · cases refused
      split at refused
      · next due =>
          have past : ∀ st', (s.set k st').controlLocked .credit k
              (bigEndian 2 st'.refund.toNat) .nobody = (s.set k st', some e) := by
            intro st'
            simp [controlLocked, set, failed]
          rw [past] at refused
          exact (Option.some.inj refused).symm
      · exact induction (s := s.set k _) failed refused

theorem controlLocked_failing (s : Session) (t : Kind) (id : Nat) (p : List Byte)
    (done : Waiter) : (s.controlLocked t id p done).1.failing = s.failing := by
  unfold controlLocked
  split
  · rfl
  · split
    · rfl
    · rfl
    · split_ifs <;> rfl

/-- The drain loop leaves it to `Read` to fail the session. -/
theorem drain_failing (k : Nat) (draw : Nat → Nat) (fuel room : Nat) (got : List Byte)
    (s : Session) : (drain k draw fuel room got s).1.failing = s.failing := by
  induction fuel generalizing room got s with
  | zero => rfl
  | succ fuel induction =>
      rw [drain]
      split
      · rfl
      next st here =>
      split
      · rfl
      next c rest front =>
      split
      · rfl
      simp only
      split
      · rfl
      split
      · have same := controlLocked_failing (s.set k (st.pop (c.rest.take room))) .credit k
          (bigEndian 2 (st.pop (c.rest.take room)).refund.toNat) .nobody
        split
        · next refused =>
            rw [refused] at same
            exact same
        · next granted =>
            rw [granted] at same
            exact (induction _ _ _).trans same
      · exact induction _ _ _

theorem headerError_ofTransport {h : List Byte} {e : Err} (fine : e.ofTransport = true) :
    (headerError h e).ofTransport = true := by
  unfold headerError
  split_ifs
  · rfl
  · rfl
  · exact fine

theorem receiveError_ofTransport {bs : List Byte} {e : Option Err} {cause : Err}
    (fine : e.all Err.ofTransport = true) (error : receiveError bs e = some cause) :
    cause.ofTransport = true := by
  unfold receiveError at error
  split at error
  · split_ifs at error
    cases error
    rfl
  · cases error
    rfl
  · cases error
    exact fine

/-- The read loop stops on a transport read only with a transport error. -/
theorem recv_failing {s s' : Session} {bs : List Byte} {e : Option Err} {cause : Err}
    (taken : s.recv bs e = some s') (member : cause ∈ s'.failing) :
    cause ∈ s.failing ∨ cause.ofTransport = true := by
  unfold recv at taken
  split at taken
  · cases taken
  next fine =>
  have fine : e.all Err.ofTransport = true := by simpa using fine
  have stopped : ∀ {before : List Err} {error : Err},
      before = s.failing → error.ofTransport = true → cause ∈ before ++ [error] →
      cause ∈ s.failing ∨ cause.ofTransport = true := by
    intro before error same known member
    rcases List.mem_append.mp member with old | new
    · exact .inl (same ▸ old)
    · exact .inr (List.mem_singleton.mp new ▸ known)
  simp only at taken
  split at taken
  · rcases recvHeader_cases taken with ⟨-, -, ⟨-, rfl⟩ | ⟨-, error, rfl, rfl⟩⟩
    · exact .inl member
    · exact stopped rfl (headerError_ofTransport fine) member
  · rcases recvPayload_cases taken with ⟨-, -, ⟨-, -, rfl⟩ | ⟨error, known, rfl⟩⟩
    · exact .inl member
    · refine stopped rfl ?_ member
      rcases known with rfl | ⟨-, -, rfl⟩
      · exact fine
      · rfl
  · next hd got discard position =>
      have same : ∀ complete, ((s.hears bs).published hd.id bs discard complete).failing =
          s.failing := fun complete => (published_kept _ _ _ _ _).2.2
      rcases recvData_cases (s := s.hears bs) taken with
        ⟨-, ⟨-, -, rfl⟩ | ⟨-, -, rfl⟩ | ⟨error, known, rfl⟩⟩
      · exact .inl (same true ▸ member)
      · exact .inl (same false ▸ member)
      · exact stopped (same true) (receiveError_ofTransport fine known) member
  · cases taken

/-- A goroutine that decides to fail the session has found one of the known causes. -/
theorem step_failing {s s' : Session} {action : Action} (sound : s.Sound)
    (taken : s.step action = some s') {e : Err} (member : e ∈ s'.failing) :
    e ∈ s.failing ∨ e = .full ∨ s.err = some e ∨ s.Causes action e := by
  have fail_same : ∀ (s : Session) (e : Err), (s.fail e).failing = s.failing := by
    intro s e
    unfold fail
    split <;> rfl
  have deferred_same : ∀ (s : Session) (k : Nat) (st : Stream) (pending : Bool),
      ((s.set k st).withDeferred k pending).failing = s.failing := by
    intro s k st pending
    cases pending <;> rfl
  have stopped : ∀ {before : List Err} {error : Err}, e ∈ before ++ [error] →
      e ∈ before ∨ e = error := by
    intro before error member
    rcases List.mem_append.mp member with old | new
    · exact .inl old
    · exact .inr (List.mem_singleton.mp new)
  cases action with
  | «open» metadata draw =>
      cases taken
      refine .inl ?_
      rcases s.open_cases metadata draw with
        same | ⟨-, -, -, -, -, -, ⟨-, outcome⟩ | ⟨-, outcome⟩⟩
      · rwa [same] at member
      · rwa [outcome] at member
      · rwa [outcome] at member
  | accept =>
      rcases Option.map_eq_some_iff.mp taken with ⟨⟨_, result⟩, made, rfl⟩
      unfold accept at made
      split at made <;> cases made
      exact .inl member
  | respond k code =>
      rcases Option.map_eq_some_iff.mp taken with ⟨⟨_, result⟩, made, rfl⟩
      rcases respond_cases made with
        ⟨st, -, -, ⟨rfl, -⟩ | ⟨-, -, -, -, ⟨-, -, rfl⟩ | ⟨-, -, -, rfl⟩⟩⟩ <;>
        exact .inl member
  | callReturn k wake =>
      rcases Option.map_eq_some_iff.mp taken with ⟨⟨_, result⟩, made, rfl⟩
      rcases callReturn_cases made with
        ⟨st, -, ⟨-, -, rest, -, rfl⟩ | ⟨-, -, rest, -, rfl⟩ | ⟨-, -, -, -, rfl⟩⟩ <;>
        exact .inl member
  | read k n draw =>
      rcases Option.map_eq_some_iff.mp taken with ⟨⟨_, result⟩, made, rfl⟩
      unfold read at made
      split at made
      · cases made
      next st here =>
      split at made
      · cases made
        exact .inl member
      · cases made
        have drained := drain_kept k draw st.unread.length n [] (Kept.refl s)
        rcases List.mem_append.mp member with old | new
        · exact .inl (drain_failing k draw _ n [] s ▸ old)
        · have refused : (drain k draw st.unread.length n [] s).2.2 = some e := by
            simpa using new
          rcases drained.2 e refused with full | protocol | failed
          · exact .inr (.inl full)
          · subst protocol
            cases failed : s.err with
            | none => exact .inr (.inr (.inr ⟨rfl, failed, st, here, refused⟩))
            | some cause =>
                have same := drain_err failed refused
                exact .inr (.inr (.inl (by rw [same])))
          · exact .inr (.inr (.inl failed))
  | write k p =>
      rcases Option.map_eq_some_iff.mp taken with ⟨⟨_, result⟩, made, rfl⟩
      rcases write_cases made with ⟨st, -, -, ⟨rfl, -⟩ | ⟨-, -, -, -, -, -, rfl⟩⟩ <;>
        exact .inl member
  | writeReturn k =>
      rcases Option.map_eq_some_iff.mp taken with ⟨⟨_, n, result⟩, made, rfl⟩
      rcases writeReturn_cases made with ⟨st, r, rest, -, -, -, -, rfl⟩
      exact .inl member
  | closeWrite k =>
      rcases Option.map_eq_some_iff.mp taken with ⟨⟨_, result⟩, made, rfl⟩
      rcases closeWrite_cases made with ⟨st, -, -, ⟨rfl, -⟩ | ⟨-, -, -, -, ⟨-, -, -, rfl⟩ |
        ⟨-, ⟨-, -, rfl⟩ | ⟨-, -, rfl⟩⟩⟩⟩ <;> exact .inl member
  | finish k =>
      rcases Option.map_eq_some_iff.mp taken with ⟨⟨_, result⟩, made, rfl⟩
      rcases finish_cases made with ⟨st, -, -, ⟨rfl, -⟩ | ⟨-, -, -, -, -,
        ⟨cause, pending, -, known, -, rfl⟩ | ⟨-, -, rfl⟩⟩⟩
      · exact .inl member
      · have same := deferred_same s k { st with applicationDone := true, pendingFIN := false }
          pending
        rcases List.mem_append.mp member with old | new
        · exact .inl (same ▸ old)
        · have new : e = cause := by simpa using new
          subst new
          rcases known with full | failed
          · exact .inr (.inl full)
          · exact .inr (.inr (.inl failed))
      · have same := deferred_same s k { st with
          applicationDone := true, pendingFIN := false, call := .finish } st.pendingFIN
        exact .inl (same ▸ member)
  | close k =>
      rcases close_cases taken with ⟨st, -, ⟨-, rfl⟩ | ⟨-, ⟨-, -, -, -, -, rfl⟩ |
        ⟨-, -, -, -, -, rfl⟩ | ⟨-, cause, known, rfl⟩⟩⟩
      · exact .inl member
      · rcases List.mem_append.mp member with old | new
        · exact .inl old
        · exact .inr (.inl (by simpa using new))
      · exact .inl member
      · rcases List.mem_append.mp member with old | new
        · exact .inl old
        · exact .inr (.inr (.inl (known e (by simpa using new))))
  | closeSession =>
      cases taken
      exact .inl (fail_same s .closed ▸ member)
  | cancel =>
      simp only [step] at taken
      split at taken <;> cases taken
      exact .inl member
  | fail i =>
      simp only [step] at taken
      split at taken <;> cases taken
      rw [fail_same] at member
      exact .inl (List.mem_of_mem_eraseIdx member)
  | recv bs error =>
      exact (recv_failing taken member).imp_right fun known => .inr (.inr known)
  | check =>
      rcases check_cases taken with ⟨h, position, size, ⟨refuses, rfl⟩ | ⟨hd, -,
        ⟨-, -, -, rfl⟩ | ⟨-, -, st, -, -, -, -, rfl⟩ | ⟨-, -, -, rfl⟩⟩⟩
      · exact (stopped member).imp_right fun same =>
          .inr (.inr ⟨same, h, position, size, refuses⟩)
      · exact .inl member
      · exact .inl member
      · exact .inl member
  | takeChunk =>
      rcases takeChunk_cases taken with ⟨hd, live, -, ⟨st, -, -, -, -, rfl⟩ | ⟨-, rfl⟩⟩ <;>
        exact .inl member
  | dispatch draw =>
      rcases dispatch_cases taken with ⟨hd, live, p, position, whole, outcome⟩
      have admitted : (s.admission hd.id p draw).1.failing = s.failing := by
        rcases admission_cases s hd.id p draw with
          ⟨-, ⟨-, outcome⟩ | ⟨e, -, outcome⟩⟩ | ⟨-, outcome⟩ <;> rw [outcome] <;> rfl
      rcases outcome with ⟨-, ⟨-, rfl⟩ | ⟨cause, refused, rfl⟩⟩ | ⟨-, -, rfl⟩ |
        ⟨other, st, found, ⟨objects, rfl⟩ | ⟨-, rfl⟩⟩
      · have member : e ∈ (s.admission hd.id p draw).1.failing := member
        exact .inl (admitted ▸ member)
      · rcases stopped member with old | same
        · exact .inl (admitted ▸ old)
        · rw [same]
          rcases admission_cases s hd.id p draw with
            ⟨-, ⟨-, outcome⟩ | ⟨cause', known, outcome⟩⟩ | ⟨-, outcome⟩
          · cases refused.symm.trans (congrArg Prod.snd outcome)
          · cases refused.symm.trans (congrArg Prod.snd outcome)
            rcases known with full | failed
            · exact .inr (.inl full)
            · exact .inr (.inr (.inl failed))
          · cases refused.symm.trans (congrArg Prod.snd outcome)
      · exact .inl member
      · exact (stopped member).imp_right fun same =>
          .inr (.inr ⟨same, hd, live, p, st, position, whole, other, found, objects⟩)
      · have same : (s.afterFrame hd.id st hd.kind p).failing = s.failing := by
          unfold afterFrame
          split <;> rfl
        exact .inl (same ▸ member)
  | wakeUp =>
      simp only [step, wakeUp] at taken
      split at taken
      · split at taken
        · cases taken
          exact .inl member
        · split at taken <;> cases taken
          exact .inl member
      · cases taken
  | batch draws =>
      rcases batch_cases sound.shape taken with ⟨-, ⟨-, rfl⟩ | ⟨-, -, -, rfl⟩ |
        ⟨-, sentControls, rest, a, work, more, padding, -, -, -, -, emits, rfl⟩⟩
      · exact .inl member
      · exact .inl member
      · exact .inl (emits.emitted.failing ▸ member)
  | send n =>
      simp only [step, send] at taken
      split at taken
      · split at taken <;> cases taken
        exact .inl member
      · cases taken
  | writeEnd error =>
      rcases writeEnd_cases taken with ⟨b, -, ⟨-, -, rfl⟩ | ⟨cause, rfl, other, known, rfl⟩⟩
      · exact .inl member
      · rcases List.mem_append.mp member with old | new
        · exact .inl old
        · rw [List.mem_singleton.mp new]
          exact .inr (.inr (.inr ⟨known, other⟩))

/-- A session takes its error from a goroutine that fails it, or from `Close`. -/
theorem step_err {s s' : Session} {action : Action} (sound : s.Sound)
    (taken : s.step action = some s') : s'.err = s.err ∨
      s.err = none ∧ ∃ e, s'.err = some e ∧ (e ∈ s.failing ∨ e = .closed) := by
  have first : ∀ (s : Session) (e : Err), (s.fail e).err = s.err ∨
      s.err = none ∧ (s.fail e).err = some e := by
    intro s e
    unfold fail
    split
    · exact .inl rfl
    · next alive => exact .inr ⟨alive, rfl⟩
  cases action with
  | «open» metadata draw =>
      cases taken
      refine .inl ?_
      rcases s.open_cases metadata draw with
        same | ⟨-, -, -, -, -, -, ⟨-, outcome⟩ | ⟨-, outcome⟩⟩
      · rw [same]
      · rw [outcome]
        rfl
      · rw [outcome]
        rfl
  | accept =>
      rcases Option.map_eq_some_iff.mp taken with ⟨⟨_, result⟩, made, rfl⟩
      unfold accept at made
      split at made <;> cases made
      exact .inl rfl
  | respond k code =>
      rcases Option.map_eq_some_iff.mp taken with ⟨⟨_, result⟩, made, rfl⟩
      exact .inl (respond_kept made).err
  | callReturn k wake =>
      rcases Option.map_eq_some_iff.mp taken with ⟨⟨_, result⟩, made, rfl⟩
      exact .inl (callReturn_kept made).err
  | read k n draw =>
      rcases Option.map_eq_some_iff.mp taken with ⟨⟨_, result⟩, made, rfl⟩
      exact .inl (read_kept made).err
  | write k p =>
      rcases Option.map_eq_some_iff.mp taken with ⟨⟨_, result⟩, made, rfl⟩
      exact .inl (write_kept made).err
  | writeReturn k =>
      rcases Option.map_eq_some_iff.mp taken with ⟨⟨_, n, result⟩, made, rfl⟩
      exact .inl (writeReturn_kept made).err
  | closeWrite k =>
      rcases Option.map_eq_some_iff.mp taken with ⟨⟨_, result⟩, made, rfl⟩
      exact .inl (closeWrite_kept made).err
  | finish k =>
      rcases Option.map_eq_some_iff.mp taken with ⟨⟨_, result⟩, made, rfl⟩
      exact .inl (finish_kept made).err
  | close k => exact .inl (close_kept taken).err
  | closeSession =>
      cases taken
      rcases first s .closed with same | ⟨alive, failed⟩
      · exact .inl same
      · exact .inr ⟨alive, _, failed, .inr rfl⟩
  | cancel =>
      simp only [step] at taken
      split at taken <;> cases taken
      exact .inl rfl
  | fail i =>
      simp only [step] at taken
      split at taken
      · cases taken
      next e found =>
      cases taken
      rcases first { s with failing := s.failing.eraseIdx i } e with same | ⟨alive, failed⟩
      · exact .inl same
      · exact .inr ⟨alive, e, failed, .inl (List.mem_of_getElem? found)⟩
  | recv bs error =>
      simp only [step] at taken
      unfold recv at taken
      split at taken
      · cases taken
      simp only at taken
      split at taken
      · rcases recvHeader_cases taken with ⟨-, -, ⟨-, rfl⟩ | ⟨-, cause, -, rfl⟩⟩ <;>
          exact .inl rfl
      · rcases recvPayload_cases taken with ⟨-, -, ⟨-, -, rfl⟩ | ⟨cause, -, rfl⟩⟩ <;>
          exact .inl rfl
      · next hd got discard position =>
          have kept : ∀ complete, Kept (s.hears bs)
              ((s.hears bs).published hd.id bs discard complete) :=
            fun complete => (published_kept _ _ _ _ _).1
          rcases recvData_cases (s := s.hears bs) taken with
            ⟨-, ⟨-, -, rfl⟩ | ⟨-, -, rfl⟩ | ⟨cause, -, rfl⟩⟩ <;> exact .inl (kept _).err
      · cases taken
  | check =>
      rcases check_cases taken with ⟨h, -, -, ⟨-, rfl⟩ | ⟨hd, -, ⟨-, -, -, rfl⟩ |
        ⟨-, -, st, -, -, -, -, rfl⟩ | ⟨-, -, -, rfl⟩⟩⟩ <;> exact .inl rfl
  | takeChunk =>
      rcases takeChunk_cases taken with ⟨hd, live, -, ⟨st, -, -, -, -, rfl⟩ | ⟨-, rfl⟩⟩ <;>
        exact .inl rfl
  | dispatch draw =>
      rcases dispatch_cases taken with ⟨hd, live, p, -, -, outcome⟩
      have admitted : (s.admission hd.id p draw).1.err = s.err := by
        rcases admission_cases s hd.id p draw with
          ⟨-, ⟨-, outcome⟩ | ⟨e, -, outcome⟩⟩ | ⟨-, outcome⟩ <;> rw [outcome] <;> rfl
      rcases outcome with ⟨-, ⟨-, rfl⟩ | ⟨cause, -, rfl⟩⟩ | ⟨-, -, rfl⟩ |
        ⟨-, st, -, ⟨-, rfl⟩ | ⟨-, rfl⟩⟩
      · exact .inl admitted
      · exact .inl admitted
      · exact .inl rfl
      · exact .inl rfl
      · exact .inl (afterFrame_kept s hd.id st hd.kind p).err
  | wakeUp =>
      simp only [step, wakeUp] at taken
      split at taken
      · split at taken
        · cases taken
          exact .inl rfl
        · split at taken <;> cases taken
          exact .inl rfl
      · cases taken
  | batch draws =>
      rcases batch_cases sound.shape taken with ⟨-, ⟨-, rfl⟩ | ⟨-, -, -, rfl⟩ |
        ⟨-, sentControls, rest, a, work, more, padding, -, -, -, -, emits, rfl⟩⟩
      · exact .inl rfl
      · exact .inl rfl
      · exact .inl emits.emitted.err
  | send n =>
      simp only [step, send] at taken
      split at taken
      · split at taken <;> cases taken
        exact .inl rfl
      · cases taken
  | writeEnd error =>
      rcases writeEnd_cases taken with ⟨b, -, ⟨-, -, rfl⟩ | ⟨cause, -, -, -, rfl⟩⟩ <;>
        exact .inl rfl

end Session

end Veil.Mux
