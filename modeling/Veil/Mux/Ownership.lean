import Veil.Mux.Returning

/-!
# The ownership of receive blocks

Over all runs of any number of sessions every block has one owner, who returns
it once.  The invariant is an account: a life of all blocks whose calls are the
ones the code has made, and which the process reflects.
-/

namespace Veil.Mux.Chunks

open Veil.Lib

variable {ι : Type*} [DecidableEq ι]

/-! ## The sessions between two pieces -/

/-- A session as `New` makes it has no streams. -/
theorem Local.new_tidy {base : Session} (begun : Session.anyMachine.start base) :
    (Local.new base).Tidy := by
  have reached : Session.anyMachine.Reachable base := .start begun
  have sound := Session.any_sound reached
  rcases begun with ⟨server, profile, draw, preamble, -, rfl⟩
  have closes : ∀ k, ¬ Lock.Closes k .free := fun _ => id
  exact ⟨⟨sound, fun _ _ => rfl, nofun⟩, fun _ => ⟨[], rfl⟩, nofun,
    fun _ some_ => (some_ rfl).elim, fun k now => (closes k now).elim, nofun, nofun⟩

namespace World

/-- The queues of all sessions. -/
def Tidy (w : World ι) : Prop := ∀ i, (w.sessions i).Tidy

variable {w w' : World ι} {i : ι}

namespace Tidy

/-- A piece of one session. -/
theorem setLocal (tidy : w.Tidy) {l : Local} (own : l.Tidy) : (w.setLocal i l).Tidy := by
  intro j
  by_cases same : j = i
  · rwa [same, World.setLocal_self]
  · rw [World.setLocal_other _ _ _ same]
    exact tidy j

theorem take (tidy : w.Tidy) {cached : Option Ref} (taken : w.take i cached = some w') :
    w'.Tidy := by
  unfold World.take at taken
  simp only at taken
  split at taken
  · next hd live away at_ =>
      rcases Option.map_eq_some_iff.mp taken with ⟨⟨w₁, r⟩, got, rfl⟩
      have sessions : w₁.sessions = w.sessions := by
        rcases takeChunk_cases got with ⟨size, -, -, ⟨-, rfl⟩ | ⟨rfl, rfl⟩⟩ <;> rfl
      refine setLocal (fun j => congrFun sessions j ▸ tidy j) ?_
      refine (tidy i).rebase rfl rfl rfl (tidy i).based (fun _ => rfl) ?_
      rintro _ _ ⟨⟩
      exact congrArg Reader.inReceive at_
  · cases taken

theorem place (tidy : w.Tidy) (taken : w.place i = some w') : w'.Tidy := by
  unfold World.place at taken
  simp only at taken
  split at taken
  · next v free at_ =>
      have part : (w.sessions i).receive.part = some (.taken, v) := by rw [at_]; rfl
      split_ifs at taken with accepted <;> cases taken
      · simp only [Local.accepts, Bool.and_eq_true, decide_eq_true_eq, Option.any_eq_true,
          Bool.not_eq_true'] at accepted
        rcases accepted.2 with ⟨st, here, open_⟩
        have marks : (w.sessions i).base.marks v.hd.id = some (false, st.remoteFIN) := by
          rw [Session.marks_of_some here, open_]
        have appended := (tidy i).append free (r := v.c) marks
        exact setLocal (w := { w with calls := _ }) tidy (appended.proceed part [] none)
      · exact setLocal (w := w.modify v.c _) tidy ((tidy i).proceed part [] none)
  · cases taken

theorem arrive (tidy : w.Tidy) {bs : List Byte} {e : Option Err}
    (taken : w.arrive i bs e = some w') : w'.Tidy := by
  unfold World.arrive at taken
  simp only at taken
  split at taken
  · next v got at_ =>
      split_ifs at taken with fits
      cases taken
      have part : (w.sessions i).receive.part = some (.filling, v) := by rw [at_]; rfl
      refine setLocal (w := w.modify v.c _) tidy
        ((tidy i).rebase rfl rfl rfl ⟨?_, ?_, ?_⟩ (fun _ => rfl) ?_)
      · have sound := (tidy i).based.sound
        exact ⟨sound.shape, sound.odd, sound.reading, sound.failing, sound.err⟩
      · exact (tidy i).based.new
      · exact (tidy i).based.live
      · rintro _ _ ⟨⟩
        exact (tidy i).receiving _ v part
  · cases taken

theorem publish (tidy : w.Tidy) (taken : w.publish i = some w') : w'.Tidy := by
  unfold World.publish at taken
  simp only at taken
  split at taken
  · next v got n err fits free at_ =>
      cases taken
      have part : (w.sessions i).receive.part = some (.filling, v) := by rw [at_]; rfl
      exact setLocal (w := w.modify v.c _) tidy ((tidy i).published part got n err _)
  · cases taken

omit [DecidableEq ι] in
theorem putChunk (tidy : w.Tidy) (r : Ref) : (w.putChunk r).Tidy :=
  fun j => congrFun (w.putChunk_sessions r) j ▸ tidy j

theorem giveBack (tidy : w.Tidy) (taken : w.giveBack i = some w') : w'.Tidy := by
  unfold World.giveBack at taken
  simp only at taken
  split at taken
  · next v got err done at_ =>
      cases taken
      have part : (w.sessions i).receive.part = some (.giving, v) := by rw [at_]; rfl
      exact (tidy.putChunk v.c).setLocal ((tidy i).proceed part got err)
  · cases taken

theorem read (tidy : w.Tidy) {k n : Nat} (taken : w.read i k n = some w') : w'.Tidy := by
  unfold World.read at taken
  simp only at taken
  split at taken
  · next st free here =>
      split_ifs at taken with nothing
      · cases taken
        exact tidy
      · cases taken
        refine tidy.setLocal ((tidy i).relock rfl rfl rfl rfl ?_ (fun _ => id) nofun ?_)
        · simp [free, Lock.Closes]
        · rintro j room got put ⟨⟩
          exact ⟨by simpa using Nat.pos_of_ne_zero nothing, _, Session.marks_of_some here⟩
  · cases taken

theorem drain (tidy : w.Tidy) {k room : Nat} {got : List Byte}
    (lock : (w.sessions i).lock = .draining k room got false)
    (taken : w.drain i k room got = some w') : w'.Tidy := by
  rcases drain_cases (tidy i) lock taken with ⟨-, rfl⟩ | ⟨r, rest, c, queue, -, ⟨-, rfl⟩ |
    ⟨goesOn, bytes, after, -, rfl, ⟨-, rfl⟩ | ⟨-, rfl⟩⟩⟩
  · exact tidy.setLocal ((tidy i).finishRead lock nofun)
  · exact tidy.setLocal ((tidy i).finishRead lock nofun)
  · exact setLocal (w := w.modify r _) tidy ((tidy i).finishRead lock nofun)
  · refine (putChunk (w := w.modify r _) tidy r).setLocal ?_
    refine (tidy i).relock rfl rfl rfl rfl ?_ (fun _ => id) ?_ ?_
    · simp [lock, Lock.Closes]
    · rintro j n ⟨⟩
      exact ⟨r, rest, queue⟩
    · rintro j room' got' put ⟨⟩
      have known := (tidy i).reading k room got false lock
      refine ⟨?_, known.2⟩
      rw [not_or] at goesOn
      simp only [List.length_append]
      omega

theorem sweep (tidy : w.Tidy) (taken : w.sweep i = some w') : w'.Tidy := by
  rcases sweep_cases (tidy i) taken with ⟨k, n, put, byReader, lock, ⟨-, -, rfl⟩ |
    ⟨r, rest, queue, ⟨-, rfl⟩ | ⟨-, c, -, ⟨-, rfl⟩ | ⟨-, rfl⟩⟩⟩⟩
  · exact tidy.setLocal ((tidy i).emptied lock)
  · exact tidy.setLocal ((tidy i).onward lock queue)
  · exact (tidy.putChunk r).setLocal ((tidy i).swept lock queue)
  · exact setLocal (w := w.modify r _) tidy ((tidy i).onward lock queue)

theorem shift (tidy : w.Tidy) {k room : Nat} {got : List Byte}
    (lock : (w.sessions i).lock = .draining k room got true) (draw : Nat) :
    (w.shift i k room got draw).Tidy :=
  tidy.setLocal ((tidy i).shift lock draw)

theorem session (tidy : w.Tidy) {a : Session.Action} (taken : w.session i a = some w') :
    w'.Tidy := by
  unfold World.session at taken
  simp only at taken
  split_ifs at taken with permitted
  rcases Option.map_eq_some_iff.mp taken with ⟨s, stepped, rfl⟩
  exact tidy.setLocal ((tidy i).session permitted stepped)

omit [DecidableEq ι] in
theorem evict (tidy : w.Tidy) {size : Nat} {r : Ref} (taken : w.evict size r = some w') :
    w'.Tidy := by
  unfold World.evict at taken
  split_ifs at taken
  cases taken
  exact tidy

end Tidy

/-- A `Read` in its loop is before `putChunk`, or after it. -/
theorem turn_cases {draw : Nat} (taken : w.turn i draw = some w') : ∃ k room got,
    (w.sessions i).lock = .draining k room got false ∧ w.drain i k room got = some w' ∨
      (w.sessions i).lock = .draining k room got true ∧ w' = w.shift i k room got draw := by
  unfold World.turn at taken
  split at taken
  · next k room got lock => exact ⟨k, room, got, .inl ⟨lock, taken⟩⟩
  · next k room got lock =>
      cases taken
      exact ⟨k, room, got, .inr ⟨lock, rfl⟩⟩
  · cases taken

end World

/-! ## Every run has a life of its blocks -/

/-- A life of the blocks that makes the calls of the process, and that it reflects. -/
structure Accounts (w : World ι) (stage : Ref → Stage ι) : Prop where
  lived : Lived stage w.calls
  reflects : Reflects w stage
  bounded : Bounded w
  tidy : w.Tidy

namespace Accounts

variable {w w' : World ι} {stage : Ref → Stage ι}

theorem start (initial : machine.start w) : Accounts w fun _ => .absent := by
  rcases initial with ⟨sessions, chunks, next, caches, calls⟩
  have made : ∀ i, ∃ base, w.sessions i = .new base ∧ (Local.new base).Tidy := by
    intro i
    rcases sessions i with ⟨base, begun, same⟩
    exact ⟨base, same, Local.new_tidy begun⟩
  have away : ∀ i, (w.sessions i).receive = .away := by
    intro i
    rcases made i with ⟨base, same, -⟩
    rw [same]
    rfl
  refine ⟨calls ▸ .start, ⟨?_, ?_, fun _ _ => rfl, ?_, ?_, nofun, nofun, ?_⟩, ⟨?_, ?_⟩, ?_⟩
  · have empty : w.held = fun _ => [] := by
      funext place
      cases place with
      | reader i => simp [World.held, Receive.inHand, away i, Receive.part]
      | queue i k =>
          rcases made i with ⟨base, same, -⟩
          rw [World.held, same]
          rfl
      | cache size => exact congrFun caches size
    rw [empty]
    exact fun _ _ => rfl
  · intro r
    simp [Stage.Describes, World.flags, chunks]
  · intro i p v part
    simp [away i, Receive.part] at part
  · intro i p v part
    simp [away i, Receive.part] at part
  · intro i k member
    rcases made i with ⟨base, same, -⟩
    rw [same] at member
    cases member
  · intro r c here
    simp [chunks] at here
  · intro i r n filled
    simp [away i, Receive.filled] at filled
  · intro i
    rcases made i with ⟨base, same, tidy⟩
    rwa [same]

/-- One piece of the code moves at most one block. -/
theorem step (accounts : Accounts w stage) {a : Action ι} (taken : step w a = some w') :
    ∃ stage', Advance stage w.calls stage' w'.calls ∧ Accounts w' stage' := by
  rcases accounts with ⟨lived, reflects, bounded, tidy⟩
  have account : (∃ stage', Advance stage w.calls stage' w'.calls ∧ Reflects w' stage') →
      Bounded w' → w'.Tidy → ∃ stage', Advance stage w.calls stage' w'.calls ∧
        Accounts w' stage' := by
    rintro ⟨stage', advanced, reflects'⟩ bounded' tidy'
    exact ⟨stage', advanced, lived.advance advanced, reflects', bounded', tidy'⟩
  cases a with
  | take i cached =>
      exact account (reflects.take taken) (bounded.take reflects taken) (tidy.take taken)
  | place i =>
      exact account (reflects.place tidy taken) (bounded.place reflects tidy taken)
        (tidy.place taken)
  | arrive i bs e =>
      exact account (reflects.arrive taken) (bounded.arrive reflects taken) (tidy.arrive taken)
  | publish i =>
      exact account (reflects.publish taken) (bounded.publish reflects taken)
        (tidy.publish taken)
  | giveBack i =>
      exact account (reflects.giveBack taken) (bounded.giveBack taken) (tidy.giveBack taken)
  | read i k n =>
      exact account (reflects.read taken) (bounded.read taken) (tidy.read taken)
  | turn i draw =>
      rcases World.turn_cases taken with ⟨k, room, got, ⟨lock, drained⟩ | ⟨lock, rfl⟩⟩
      · exact account (reflects.drain bounded (tidy i) lock drained)
          (bounded.drain reflects (tidy i) lock drained) (tidy.drain lock drained)
      · exact account (Reflects.stays rfl (reflects.shift (tidy i) lock draw))
          (bounded.shift (tidy i) lock draw) (tidy.shift lock draw)
  | sweep i =>
      exact account (reflects.sweep (tidy i) taken) (bounded.sweep reflects (tidy i) taken)
        (tidy.sweep taken)
  | session i a =>
      exact account (reflects.session (tidy i) taken) (bounded.session taken)
        (tidy.session taken)
  | evict size r => exact account (reflects.evict taken) (bounded.evict taken) (tidy.evict taken)

end Accounts

end Veil.Mux.Chunks
