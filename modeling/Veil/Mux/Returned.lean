import Veil.Mux.Completion
import Veil.Mux.Ownership

/-!
# Every block has one owner and is returned once

What the account of a run says about the process itself.  Between `takeChunk`
and the first critical section of `receive` a block is with the reader although
it is not discarded, and between `putChunk` and the clearing of its slot a
queue still refers to a block that another session may already have taken; at
all other moments the slots of a queue are the blocks that its stream owns.
-/

namespace Veil.Mux.Chunks

open Veil.Lib

variable {ι : Type*} [DecidableEq ι]

/-- What holds of the blocks in every state of a process. -/
structure Owned (w : World ι) : Prop where
  /-- A block is with one reader, in the queue of one stream, or in one cache. -/
  placed : ∀ r, w.chunks r ≠ none → ∃ p, HeldOnlyIn w.held r p
  gone : ∀ r, w.chunks r = none → ∀ p, r ∉ w.held p
  /-- A block is taken only when it has been returned as often as it was taken. -/
  takes : ∀ pre post r, w.calls = pre ++ .take r :: post →
    pre.count (.take r) = pre.count (.put r)
  /-- A block is returned only when it has been taken since it was last returned. -/
  puts : ∀ pre post r, w.calls = pre ++ .put r :: post →
    pre.count (.take r) = pre.count (.put r) + 1
  /-- A slot refers to a block of its stream, or to one returned and cleared next. -/
  slots : ∀ i k n r, ((w.sessions i).queue k)[n]? = some (some r) →
    (w.sessions i).stale = some (k, n) ∨ HeldOnlyIn w.held r (.queue i k)
  /-- The reader fills blocks of the stream of its frame, and blocks it has discarded. -/
  fills : ∀ i v, (w.sessions i).receive.part = some (.filling, v) →
    HeldOnlyIn w.held v.c (.queue i v.hd.id) ∨
      HeldOnlyIn w.held v.c (.reader i) ∧ (w.chunks v.c).any Chunk.discard = true
  /-- No reader writes into a block that is returned, and only a stale slot refers to it. -/
  returns : ∀ a w' r, machine.step w a = some w' → w'.calls = w.calls ++ [.put r] →
    (∀ i p v, (w.sessions i).receive.part = some (p, v) → v.c = r → p = .giving) ∧
      (∀ i p v, (w'.sessions i).receive.part = some (p, v) → v.c ≠ r) ∧
      ∀ i k n, ((w'.sessions i).queue k)[n]? = some (some r) →
        (w'.sessions i).stale = some (k, n)
  /-- Two streams share no block. -/
  apart : ∀ i k j l r, r ∈ (w.sessions i).blocks k → r ∈ (w.sessions j).blocks l →
    i = j ∧ k = l
  /-- Once a stream was read to its end, every block queued on it has been returned. -/
  ended : ∀ pre post i k r, w.calls = pre ++ .queue i k r :: post →
    k ∈ (w.sessions i).ended → .put r ∈ post
  /-- Once a stream is closed, so has every block but one that the reader has discarded. -/
  closed : ∀ pre post i k r fin, w.calls = pre ++ .queue i k r :: post →
    (w.sessions i).base.marks k = some (true, fin) → ¬ (w.sessions i).lock.Closes k →
    .put r ∈ post ∨ ∃ p v, (w.sessions i).receive.part = some (p, v) ∧ v.c = r ∧
      (w.chunks r).any Chunk.discard = true

namespace Accounts

variable {w w' : World ι} {stage : Ref → Stage ι} {i : ι} {k : Nat} {r : Ref}

theorem held_of_stage (accounts : Accounts w stage) {p : Place ι}
    (place : (stage r).place = some p) : HeldOnlyIn w.held r p :=
  accounts.reflects.held.heldOnlyIn place

theorem heldOnlyIn_queue (accounts : Accounts w stage) (member : r ∈ (w.sessions i).blocks k) :
    HeldOnlyIn w.held r (.queue i k) :=
  accounts.held_of_stage ((accounts.reflects.held.mem_iff (p := .queue i k)).mp member)

theorem placed (accounts : Accounts w stage) (exists_ : w.chunks r ≠ none) :
    ∃ p, HeldOnlyIn w.held r p := by
  have flags := accounts.reflects.blocks r
  have some_ : ∃ p, (stage r).place = some p := by
    cases was : stage r with
    | absent =>
        rw [was] at flags
        exact (exists_ (Option.map_eq_none_iff.mp flags)).elim
    | taken | queued | dropped | cached => exact ⟨_, rfl⟩
  rcases some_ with ⟨p, place⟩
  exact ⟨p, accounts.held_of_stage place⟩

theorem gone (accounts : Accounts w stage) (none_ : w.chunks r = none) (p : Place ι) :
    r ∉ w.held p := by
  have flags := accounts.reflects.blocks r
  have missing : w.flags r = none := Option.map_eq_none_iff.mpr none_
  rw [missing] at flags
  refine accounts.reflects.held.absent ?_ p
  cases was : stage r with
  | absent => rfl
  | taken | queued | dropped =>
      rw [was] at flags
      rcases flags with ⟨_, -, some_⟩
      cases some_
  | cached =>
      rw [was] at flags
      rcases flags with ⟨-, _, _, some_⟩
      cases some_

/-- A discarded block of a stream or of a frame is with the reader that fills or returns it. -/
theorem of_dropped (accounts : Accounts w stage) {left : Option Nat} {complete : Bool}
    (was : stage r = .dropped i left complete) :
    ∃ p v, (w.sessions i).receive.part = some (p, v) ∧ v.c = r ∧
      (w.chunks r).any Chunk.discard = true := by
  have flags := accounts.reflects.blocks r
  rw [was] at flags
  rcases flags with ⟨size, -, flags⟩
  have member : r ∈ w.held (.reader i) := by
    rw [accounts.reflects.held.mem_iff, was]
    rfl
  rcases Receive.of_mem_inHand member with ⟨p, v, part, block⟩
  exact ⟨p, v, part, block, World.discard_of_flags flags⟩

theorem slots (accounts : Accounts w stage) {n : Nat}
    (slot : ((w.sessions i).queue k)[n]? = some (some r)) :
    (w.sessions i).stale = some (k, n) ∨ HeldOnlyIn w.held r (.queue i k) :=
  (Local.stale_or_mem slot).imp_right accounts.heldOnlyIn_queue

theorem fills (accounts : Accounts w stage) {v : Receiving}
    (part : (w.sessions i).receive.part = some (.filling, v)) :
    HeldOnlyIn w.held v.c (.queue i v.hd.id) ∨
      HeldOnlyIn w.held v.c (.reader i) ∧ (w.chunks v.c).any Chunk.discard = true := by
  rcases accounts.reflects.fits i _ v part with ⟨was, -⟩ | ⟨left, was⟩
  · exact .inl (accounts.held_of_stage (by rw [was]; rfl))
  · rcases accounts.of_dropped was with ⟨_, _, -, -, discarded⟩
    exact .inr ⟨accounts.held_of_stage (by rw [was]; rfl), discarded⟩

/-- No reader has a block that is in a cache. -/
theorem unused (accounts : Accounts w stage) {size : Nat} (was : stage r = .cached size)
    {p : Part} {v : Receiving} (part : (w.sessions i).receive.part = some (p, v)) : v.c ≠ r := by
  rintro rfl
  have reader := (accounts.reflects.fits i p v part).reader
  rw [was] at reader
  cases reader

/-- Only stale slots refer to a block that is in a cache. -/
theorem stale_of_cached (accounts : Accounts w stage) {size n : Nat}
    (was : stage r = .cached size)
    (slot : ((w.sessions i).queue k)[n]? = some (some r)) :
    (w.sessions i).stale = some (k, n) := by
  refine (Local.stale_or_mem slot).resolve_right fun member => ?_
  have place := (accounts.reflects.held.mem_iff (p := .queue i k)).mp member
  rw [was] at place
  cases place

/-- The reader that still has a block which is returned next does not write into it. -/
theorem giving (accounts : Accounts w stage)
    (was : (∃ i k, stage r = .queued i k true) ∨ ∃ i left, stage r = .dropped i left true)
    {p : Part} {v : Receiving} (part : (w.sessions i).receive.part = some (p, v))
    (block : v.c = r) : p = .giving := by
  subst block
  have fits := accounts.reflects.fits i p v part
  cases p with
  | giving => rfl
  | taken =>
      rcases was with ⟨_, _, was⟩ | ⟨_, _, was⟩ <;> exact nomatch was.symm.trans fits
  | filling =>
      rcases fits with ⟨placed, -⟩ | ⟨left, placed⟩ <;>
        rcases was with ⟨_, _, was⟩ | ⟨_, _, was⟩ <;> exact nomatch was.symm.trans placed

theorem apart (accounts : Accounts w stage) {j : ι} {l : Nat}
    (one : r ∈ (w.sessions i).blocks k) (other : r ∈ (w.sessions j).blocks l) :
    i = j ∧ k = l := by
  have first := (accounts.reflects.held.mem_iff (p := .queue i k)).mp one
  have second := (accounts.reflects.held.mem_iff (p := .queue j l)).mp other
  cases first.symm.trans second
  exact ⟨rfl, rfl⟩

/-- A closed stream has no block left once the loop of `closeLocked` has ended. -/
theorem untraced_of_closed (accounts : Accounts w stage) {fin : Bool}
    (closed : (w.sessions i).base.marks k = some (true, fin))
    (done : ¬ (w.sessions i).lock.Closes k) {complete : Bool} :
    stage r ≠ .queued i k complete := by
  intro was
  have member := (accounts.reflects.held.mem_iff (p := .queue i k) (r := r)).mpr (by
    rw [was]
    rfl)
  have empty : (w.sessions i).queue k = [] := by
    by_contra some_
    rcases (accounts.tidy i).unclosed k some_ with now | ⟨_, open_⟩
    · exact done now
    · exact nomatch closed.symm.trans open_
  rw [World.held, Local.blocks, Local.slots, empty] at member
  split at member
  · split_ifs at member <;> cases member
  · cases member

theorem owned (accounts : Accounts w stage) : Owned w where
  placed _ exists_ := accounts.placed exists_
  gone _ none_ := accounts.gone none_
  takes _ _ _ split := accounts.lived.take_back split
  puts _ _ _ split := accounts.lived.put_once split
  slots _ _ _ _ slot := accounts.slots slot
  fills _ _ part := accounts.fills part
  returns a w' r taken grown := by
    rcases accounts.step taken with ⟨stage', advanced, accounts'⟩
    rcases advanced.returned grown with ⟨⟨size, cached⟩, was⟩
    exact ⟨fun _ _ _ part block => accounts.giving was part block,
      fun _ _ _ part => accounts'.unused cached part,
      fun _ _ _ slot => accounts'.stale_of_cached cached slot⟩
  apart _ _ _ _ _ one other := accounts.apart one other
  ended pre post i k r split member := by
    rcases accounts.lived.returned_or_traces split with returned | traces
    · exact returned
    · exact ((accounts.reflects.ended i k member).2 r traces).elim
  closed pre post i k r fin split closed done := by
    refine (accounts.lived.returned_or_traces split).imp_right fun traces => ?_
    cases was : stage r with
    | absent | taken | cached =>
        rw [was] at traces
        cases traces
    | queued j l complete =>
        rw [was] at traces
        rcases traces with ⟨rfl, rfl⟩
        exact (accounts.untraced_of_closed closed done was).elim
    | dropped j left complete =>
        rw [was] at traces
        rcases traces with ⟨rfl, -⟩
        exact accounts.of_dropped was

/-! ## The loops end -/

/-- The blocks of a queue exist. -/
theorem exists_of_mem (accounts : Accounts w stage) (member : r ∈ (w.sessions i).blocks k) :
    ∃ c, w.chunks r = some c := by
  rcases (accounts.reflects.of_mem_blocks member).1 with ⟨complete, was⟩
  have flags := accounts.reflects.blocks r
  rw [was] at flags
  rcases flags with ⟨size, -, flags⟩
  rcases Option.map_eq_some_iff.mp flags with ⟨c, here, -⟩
  exact ⟨c, here⟩

/-- `Read` never finds a cleared slot at `head`. -/
theorem turn_possible (accounts : Accounts w stage) {room : Nat} {got : List Byte} {put : Bool}
    (lock : (w.sessions i).lock = .draining k room got put) (draw : Nat) :
    ∃ w', w.turn i draw = some w' := by
  simp only [World.turn, lock]
  cases put with
  | true => exact ⟨_, rfl⟩
  | false =>
      rcases (accounts.tidy i).rows k with ⟨entries, queue⟩
      simp only [Local.cursor, lock] at queue
      simp only [World.drain, queue]
      cases entries with
      | nil =>
          rw [row_getElem?_nil]
          exact ⟨_, rfl⟩
      | cons r rest =>
          have blocks := Local.blocks_row (by simp only [Local.stale, lock]) queue
          rcases accounts.exists_of_mem (r := r) (by rw [blocks]; exact List.mem_cons_self) with
            ⟨c, here⟩
          simp only [row_getElem?_cons, here]
          split_ifs <;> exact ⟨_, rfl⟩

/-- The loop of `closeLocked` finds a block at every index. -/
theorem sweep_possible (accounts : Accounts w stage) {n : Nat} {put byReader : Bool}
    (lock : (w.sessions i).lock = .closing k n put byReader) :
    ∃ w', w.sweep i = some w' := by
  simp only [World.sweep, lock]
  cases put with
  | true => exact ⟨_, rfl⟩
  | false =>
      rcases (accounts.tidy i).rows k with ⟨entries, queue⟩
      simp only [Local.cursor, lock, if_true] at queue
      simp only [queue]
      cases entries with
      | nil =>
          rw [row_getElem?_nil]
          exact ⟨_, rfl⟩
      | cons r rest =>
          have blocks := Local.blocks_row (by simp only [Local.stale, lock]) queue
          rcases accounts.exists_of_mem (r := r) (by rw [blocks]; exact List.mem_cons_self) with
            ⟨c, here⟩
          simp only [row_getElem?_cons, here]
          split_ifs <;> exact ⟨_, rfl⟩

/-- The loop of `closeLocked` ends, and gives the lock back. -/
theorem sweeps_end (accounts : Accounts w stage) {n : Nat} {put byReader : Bool}
    (lock : (w.sessions i).lock = .closing k n put byReader) :
    ∃ m w', machine.run w (List.replicate m (.sweep i)) = some w' ∧
      (w'.sessions i).lock = .free := by
  -- Every piece returns a block or clears a slot.
  induction size : 2 * ((w.sessions i).queue k).reduceOption.length +
      (if put = true then 0 else 1) using Nat.strong_induction_on generalizing w stage n put with
  | _ size induction =>
      subst size
      rcases accounts.sweep_possible lock with ⟨w', swept⟩
      rcases accounts.step (a := .sweep i) swept with ⟨stage', -, accounts'⟩
      have extend : (∃ m w'', machine.run w' (List.replicate m (.sweep i)) = some w'' ∧
          (w''.sessions i).lock = .free) →
            ∃ m w'', machine.run w (List.replicate m (.sweep i)) = some w'' ∧
              (w''.sessions i).lock = .free := by
        rintro ⟨m, w'', ran, free⟩
        exact ⟨m + 1, w'', Option.bind_eq_some_iff.mpr ⟨w', swept, ran⟩, free⟩
      rcases World.sweep_cases (accounts.tidy i) swept with
        ⟨k', n', put', byReader', lock', outcome⟩
      cases lock.symm.trans lock'
      rcases outcome with ⟨-, -, rfl⟩ | ⟨r, rest, queue, outcome⟩
      · exact extend ⟨0, _, rfl, by rw [World.setLocal_self]⟩
      have cleared : ((w.sessions i).clear k n).queue k = row (n + 1) rest := by
        simp [Local.clear, queue]
      rcases outcome with ⟨rfl, rfl⟩ | ⟨rfl, c, -, ⟨-, rfl⟩ | ⟨-, rfl⟩⟩
      · refine extend (induction _ ?_ accounts' (by rw [World.setLocal_self]) rfl)
        simp [cleared, queue]
        omega
      · refine extend (induction _ ?_ accounts' (by rw [World.setLocal_self]) rfl)
        simp [queue]
      · refine extend (induction _ ?_ accounts' (by rw [World.setLocal_self]) rfl)
        simp [cleared, queue]

end Accounts

/-- A server accepts stream 1 and takes a block for the header of `n` bytes of DATA. -/
def takes (i : Bool) (n : Byte) (cached : Option Ref) : List (Action Bool) :=
  [.session i (.recv [1, 0, 0, 0, 1, 0, 0, 1] none), .session i .check,
    .session i (.recv [1] none), .session i (.dispatch 0), .session i (.respond 1 0),
    .session i (.recv [4, 0, 0, 0, 1, 0, 0, n] none), .session i .check, .take i cached]

/-- The frame arrives, and a `Read` returns its block. -/
def reads : List (Action Bool) :=
  [.place true, .arrive true [5, 6] none, .publish true, .read true 1 10, .turn true 0]

/-- The stream is closed while its frame arrives. -/
def closes : List (Action Bool) :=
  [.place true, .arrive true [5] none, .session true (.close 1), .sweep true, .sweep true]

end Veil.Mux.Chunks
