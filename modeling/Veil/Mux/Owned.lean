import Veil.Lib.Holding
import Veil.Mux.Queues

/-!
# Who owns a block

`World.held` says what every place holds: a reader the block it has taken or
discarded, a stream the blocks in its queue, a cache the blocks in it.  A
process `Reflects` a stage for every block when each block is in the place its
stage names and nowhere else, and when the flags of the blocks and the calls of
`receive` agree with the stages.

What a piece of the code does to all this is covered by two rules: it moves no
block, or it moves one.
-/

namespace Veil.Mux.Chunks

open Veil.Lib

/-- What the owners of a block go by, and its capacity. -/
def Chunk.flags (c : Chunk) : Bool × Bool × Nat := (c.complete, c.discard, c.b.length)

/-- The block with the reader: taken and not placed, or discarded. -/
def Receive.inHand (chunks : Ref → Option Chunk) (receive : Receive) : List Ref :=
  match receive.part with
  | none => []
  | some (.filling, v) => if (chunks v.c).any Chunk.discard then [v.c] else []
  | some (_, v) => [v.c]

namespace World

variable {ι : Type*}

def flags (w : World ι) (r : Ref) : Option (Bool × Bool × Nat) := (w.chunks r).map Chunk.flags

/-- The blocks in a place. -/
def held (w : World ι) : Place ι → List Ref
  | .reader i => (w.sessions i).receive.inHand w.chunks
  | .queue i k => (w.sessions i).blocks k
  | .cache size => w.blockCaches size

section Pieces

variable [DecidableEq ι] (w : World ι) (i : ι) (l : Local) (r : Ref) (f : Chunk → Chunk)

@[simp]
theorem setLocal_self : (w.setLocal i l).sessions i = l := Function.update_self _ _ _

theorem setLocal_other {j : ι} (other : j ≠ i) : (w.setLocal i l).sessions j = w.sessions j :=
  Function.update_of_ne other _ _

@[simp]
theorem setLocal_flags : (w.setLocal i l).flags = w.flags := rfl

@[simp]
theorem setLocal_blockCaches : (w.setLocal i l).blockCaches = w.blockCaches := rfl

@[simp]
theorem setLocal_calls : (w.setLocal i l).calls = w.calls := rfl

@[simp]
theorem setLocal_next : (w.setLocal i l).next = w.next := rfl

omit [DecidableEq ι] in
theorem modify_flags_self : (w.modify r f).flags r = (w.chunks r).map (Chunk.flags ∘ f) := by
  simp [flags, modify]

omit [DecidableEq ι] in
/-- A change of flags that depends on the flags only. -/
theorem modify_flags_map (g : Bool × Bool × Nat → Bool × Bool × Nat)
    (same : ∀ c, (f c).flags = g c.flags) : (w.modify r f).flags r = (w.flags r).map g := by
  rw [modify_flags_self, flags, Option.map_map]
  congr 1
  funext c
  exact same c

omit [DecidableEq ι] in
theorem modify_flags_other {s : Ref} (other : s ≠ r) : (w.modify r f).flags s = w.flags s := by
  simp [flags, modify, other]

omit [DecidableEq ι] in
/-- A change of bytes or positions leaves the flags. -/
theorem modify_flags_same (same : ∀ c, w.chunks r = some c → (f c).flags = c.flags) (s : Ref) :
    (w.modify r f).flags s = w.flags s := by
  by_cases own : s = r
  · subst own
    rw [modify_flags_self, flags]
    cases here : w.chunks s with
    | none => rfl
    | some c => exact congrArg some (same c here)
  · exact w.modify_flags_other r f own

omit [DecidableEq ι] in
/-- The flags of a block after a read into it has been published. -/
theorem published_flags {w : World ι} {r : Ref} (got : List Byte) {complete discard : Bool}
    {size : Nat} (now : Bool) (flags : w.flags r = some (complete, discard, size)) :
    (w.modify r fun c => { c with «end» := got.length, complete := now }).flags r =
      some (now, discard, size) := by
  rw [w.modify_flags_map r _ (fun f => (now, f.2)) fun _ => rfl, flags]
  rfl

omit [DecidableEq ι] in
theorem discard_of_flags {w : World ι} {r : Ref} {complete discard : Bool} {size : Nat}
    (flags : w.flags r = some (complete, discard, size)) :
    (w.chunks r).any Chunk.discard = discard := by
  rcases Option.map_eq_some_iff.mp flags with ⟨c, here, same⟩
  rw [here]
  exact congrArg (·.2.1) same

omit [DecidableEq ι] in
/-- `putChunk` of a block with one of the three capacities. -/
theorem putChunk_eq {w : World ι} {r : Ref} {complete discard : Bool} {size : Nat}
    (flags : w.flags r = some (complete, discard, size)) (known : size ∈ blockCapacities) :
    w.putChunk r = { w with
      blockCaches := Function.update w.blockCaches size (r :: w.blockCaches size)
      calls := w.calls ++ [.put r] } := by
  rcases Option.map_eq_some_iff.mp flags with ⟨c, here, same⟩
  have capacity : c.b.length = size := congrArg (·.2.2) same
  have found : blockCapacities.find? (c.b.length = ·) = some size := by
    rw [capacity]
    revert known
    simp only [blockCapacities, List.mem_cons, List.not_mem_nil, or_false]
    rintro (rfl | rfl | rfl) <;> rfl
  simp [putChunk, here, found]

omit [DecidableEq ι] in
/-- Everything `takeChunk` can do. -/
theorem takeChunk_cases {w w' : World ι} {n : Nat} {cached : Option Ref} {r : Ref}
    (taken : w.takeChunk n cached = some (w', r)) :
    ∃ size ∈ blockCapacities, n ≤ size ∧
      (r ∈ w.blockCaches size ∧
          w' = { w.modify r Chunk.reset with
            blockCaches := Function.update w.blockCaches size ((w.blockCaches size).erase r)
            calls := w.calls ++ [.take r] } ∨
        r = w.next ∧
          w' = { w with
            chunks := Function.update w.chunks w.next (some (.new size))
            next := w.next + 1
            calls := w.calls ++ [.take w.next] }) := by
  unfold takeChunk at taken
  split at taken
  · cases taken
  · next size s fits =>
      split_ifs at taken with member
      cases taken
      exact ⟨size, List.mem_of_find?_eq_some fits, by simpa using List.find?_some fits,
        .inl ⟨member, rfl⟩⟩
  · next size fits =>
      cases taken
      exact ⟨size, List.mem_of_find?_eq_some fits, by simpa using List.find?_some fits,
        .inr ⟨rfl, rfl⟩⟩

end Pieces

end World

namespace Stage

variable {ι : Type*}

/-- The reader that still uses the block. -/
def reader : Stage ι → Option ι
  | taken i | queued i _ false | dropped i _ _ => some i
  | _ => none

/-- The flags of a block in its stage. -/
def Describes (flags : Option (Bool × Bool × Nat)) : Stage ι → Prop
  | absent => flags = none
  | taken _ => ∃ size ∈ blockCapacities, flags = some (false, false, size)
  | queued _ _ complete => ∃ size ∈ blockCapacities, flags = some (complete, false, size)
  | dropped _ _ complete => ∃ size ∈ blockCapacities, flags = some (complete, true, size)
  | cached size => size ∈ blockCapacities ∧ ∃ complete discard, flags = some (complete, discard, size)

end Stage

/-- The stage of the block of a call of `receive`. -/
def Part.Fits {ι : Type*} (i : ι) (v : Receiving) (stage : Stage ι) : Part → Prop
  | taken => stage = .taken i
  | filling => stage = .queued i v.hd.id false ∧ v.live = true ∨ ∃ left, stage = .dropped i left false
  | giving => ∃ left, stage = .dropped i left true

theorem Part.Fits.reader {ι : Type*} {i : ι} {v : Receiving} {stage : Stage ι} {p : Part}
    (fits : p.Fits i v stage) : stage.reader = some i := by
  cases p with
  | taken => cases fits; rfl
  | filling =>
      rcases fits with ⟨rfl, -⟩ | ⟨left, rfl⟩ <;> rfl
  | giving =>
      rcases fits with ⟨left, rfl⟩
      rfl

/-- Every block is where its stage says, and used as its stage says. -/
structure Reflects {ι : Type*} [DecidableEq ι] (w : World ι) (stage : Ref → Stage ι) : Prop where
  held : Assigned w.held fun r => (stage r).place
  blocks : ∀ r, (stage r).Describes (w.flags r)
  fresh : ∀ r, w.next ≤ r → stage r = .absent
  fits : ∀ i p v, (w.sessions i).receive.part = some (p, v) → p.Fits i v (stage v.c)
  room : ∀ i p v, (w.sessions i).receive.part = some (p, v) →
    ∀ complete discard size, w.flags v.c = some (complete, discard, size) → v.hd.length ≤ size
  filling : ∀ i k r, stage r = .queued i k false →
    ∃ v, (w.sessions i).receive.part = some (.filling, v) ∧ v.c = r
  /-- A stream whose block was discarded in its queue has been closed. -/
  dropped : ∀ i k complete r, stage r = .dropped i (some k) complete →
    ∃ fin, (w.sessions i).base.marks k = some (true, fin)
  /-- A stream that was read to its end has no block left. -/
  ended : ∀ i, ∀ k ∈ (w.sessions i).ended,
    (∃ closed, (w.sessions i).base.marks k = some (closed, true)) ∧
      ∀ r, ¬ (stage r).Traces i k

/-- What every piece of the code leaves to the owners of blocks of its session. -/
structure Local.Follows (l l' : Local) : Prop where
  closed : ∀ k fin, l.base.marks k = some (true, fin) → ∃ fin, l'.base.marks k = some (true, fin)
  ended : ∀ k closed, l.base.marks k = some (closed, true) →
    ∃ closed, l'.base.marks k = some (closed, true)

theorem Local.Follows.same {l l' : Local} (marks : ∀ k, l'.base.marks k = l.base.marks k) :
    l.Follows l' where
  closed k fin before := ⟨fin, (marks k).trans before⟩
  ended k closed before := ⟨closed, (marks k).trans before⟩

theorem Receive.inHand_congr {chunks chunks' : Ref → Option Chunk} {receive : Receive}
    (same : ∀ p v, receive.part = some (p, v) →
      (chunks' v.c).map Chunk.flags = (chunks v.c).map Chunk.flags) :
    receive.inHand chunks' = receive.inHand chunks := by
  have discard : ∀ c : Option Chunk, c.any Chunk.discard = (c.map Chunk.flags).any (·.2.1) := by
    intro c
    rw [Option.any_map]
    rfl
  unfold inHand
  split
  · rfl
  · next v part => rw [discard, discard, same _ _ part]
  · rfl

theorem Receive.of_mem_inHand {chunks : Ref → Option Chunk} {receive : Receive} {r : Ref}
    (member : r ∈ receive.inHand chunks) : ∃ p v, receive.part = some (p, v) ∧ v.c = r := by
  unfold inHand at member
  split at member
  · cases member
  · next v part =>
      split_ifs at member
      · exact ⟨_, v, part, (List.mem_singleton.mp member).symm⟩
      · cases member
  · next p v _ part => exact ⟨p, v, part, (List.mem_singleton.mp member).symm⟩

namespace Reflects

variable {ι : Type*} [DecidableEq ι] {w w' : World ι} {stage : Ref → Stage ι} {i : ι} {r : Ref}

/-- A piece that moves no block. -/
theorem stay (reflects : Reflects w stage) (i : ι)
    (sessions : ∀ j, j ≠ i → w'.sessions j = w.sessions j)
    (flags : ∀ r, w'.flags r = w.flags r) (next : w'.next = w.next)
    (caches : w'.blockCaches = w.blockCaches)
    (blocks : ∀ k, (w'.sessions i).blocks k = (w.sessions i).blocks k)
    (part : (w'.sessions i).receive.part = (w.sessions i).receive.part)
    (follows : (w.sessions i).Follows (w'.sessions i))
    (ended : ∀ k ∈ (w'.sessions i).ended, k ∈ (w.sessions i).ended ∨
      (∃ closed, (w'.sessions i).base.marks k = some (closed, true)) ∧
        ∀ r, ¬ (stage r).Traces i k) : Reflects w' stage := by
  have parts : ∀ j, (w'.sessions j).receive.part = (w.sessions j).receive.part := by
    intro j
    by_cases own : j = i
    · rw [own, part]
    · rw [sessions j own]
  refine ⟨?_, ?_, ?_, ?_, ?_, ?_, ?_, ?_⟩
  · have same : w'.held = w.held := by
      funext place
      cases place with
      | reader j =>
          have hand : (w'.sessions j).receive.inHand w'.chunks =
              (w.sessions j).receive.inHand w'.chunks := by
            unfold Receive.inHand
            rw [parts j]
          exact hand.trans (Receive.inHand_congr fun _ v _ => flags v.c)
      | queue j k =>
          by_cases own : j = i
          · subst own
            exact blocks k
          · exact congrArg (Local.blocks · k) (sessions j own)
      | cache size => exact congrFun caches size
    rw [same]
    exact reflects.held
  · intro r
    rw [flags r]
    exact reflects.blocks r
  · rw [next]
    exact reflects.fresh
  · intro j
    rw [parts j]
    exact reflects.fits j
  · intro j p v
    rw [parts j, flags]
    exact reflects.room j p v
  · intro j
    rw [parts j]
    exact reflects.filling j
  · intro j k complete r at_
    rcases reflects.dropped j k complete r at_ with ⟨fin, marks⟩
    by_cases own : j = i
    · subst own
      exact follows.closed k fin marks
    · rw [sessions j own]
      exact ⟨fin, marks⟩
  · intro j k member
    by_cases own : j = i
    · subst own
      rcases ended k member with before | now
      · rcases reflects.ended j k before with ⟨⟨closed, marks⟩, none_⟩
        exact ⟨follows.ended k closed marks, none_⟩
      · exact now
    · rw [sessions j own] at member ⊢
      exact reflects.ended j k member

/-- No other session uses a block that has no reader, or whose reader is this one. -/
theorem apart (reflects : Reflects w stage)
    (mine : (stage r).reader = none ∨ (stage r).reader = some i) {j : ι} (other : j ≠ i)
    {p : Part} {v : Receiving} (part : (w.sessions j).receive.part = some (p, v)) : v.c ≠ r := by
  rintro rfl
  have reader := (reflects.fits j p v part).reader
  rw [reader] at mine
  rcases mine with none_ | some_
  · cases none_
  · exact other (Option.some.inj some_)

/-- What the places of other sessions hold does not depend on the block. -/
theorem frame (reflects : Reflects w stage)
    (mine : (stage r).reader = none ∨ (stage r).reader = some i)
    (sessions : ∀ j, j ≠ i → w'.sessions j = w.sessions j)
    (flags : ∀ s, s ≠ r → w'.flags s = w.flags s) (o : Place ι)
    (hand : o = .reader i → w'.held o = w.held o)
    (queues : ∀ k, o = .queue i k → w'.held o = w.held o)
    (caches : ∀ size, o = .cache size → w'.held o = w.held o) : w'.held o = w.held o := by
  cases o with
  | reader j =>
      by_cases own : j = i
      · exact hand (by rw [own])
      · have same : w'.held (.reader j) = (w.sessions j).receive.inHand w'.chunks := by
          rw [World.held, sessions j own]
        rw [same]
        exact Receive.inHand_congr fun p v part => flags v.c (reflects.apart mine own part)
  | queue j k =>
      by_cases own : j = i
      · exact queues k (by rw [own])
      · exact congrArg (Local.blocks · k) (sessions j own)
  | cache size => exact caches size rfl

/-- A block stays in its place, and nothing else moves. -/
theorem held_still (reflects : Reflects w stage) {there : Option (Place ι)}
    (mine : (stage r).reader = none ∨ (stage r).reader = some i)
    (sessions : ∀ j, j ≠ i → w'.sessions j = w.sessions j)
    (flags : ∀ s, s ≠ r → w'.flags s = w.flags s) (here : there = (stage r).place)
    (hand : w'.held (.reader i) = w.held (.reader i))
    (queues : ∀ k, (w'.sessions i).blocks k = (w.sessions i).blocks k)
    (caches : w'.blockCaches = w.blockCaches) :
    Assigned w'.held (Function.update (fun s => (stage s).place) r there) := by
  refine reflects.held.still here fun o => reflects.frame mine sessions flags o ?_ ?_ ?_
  · rintro rfl
    exact hand
  · rintro k rfl
    exact queues k
  · rintro size rfl
    exact congrFun caches size

/-- A piece that moves one block. -/
theorem move (reflects : Reflects w stage) {next : Stage ι}
    (mine : (stage r).reader = none ∨ (stage r).reader = some i)
    (sessions : ∀ j, j ≠ i → w'.sessions j = w.sessions j)
    (flags : ∀ s, s ≠ r → w'.flags s = w.flags s)
    (held : Assigned w'.held (Function.update (fun s => (stage s).place) r next.place))
    (describes : next.Describes (w'.flags r))
    (fresh : w.next ≤ w'.next ∧ r < w'.next)
    (fits : ∀ p v, (w'.sessions i).receive.part = some (p, v) →
      p.Fits i v (Function.update stage r next v.c) ∧
        ∀ complete discard size, w'.flags v.c = some (complete, discard, size) →
          v.hd.length ≤ size)
    (filling : ∀ j k, next = .queued j k false →
      j = i ∧ ∃ v, (w'.sessions i).receive.part = some (.filling, v) ∧ v.c = r)
    (keeps : ∀ v, (w.sessions i).receive.part = some (.filling, v) → v.c ≠ r →
      (w'.sessions i).receive.part = some (.filling, v))
    (follows : (w.sessions i).Follows (w'.sessions i))
    (ended : (w'.sessions i).ended = (w.sessions i).ended)
    (dropped : ∀ j k complete, next = .dropped j (some k) complete →
      (∃ complete, stage r = .dropped j (some k) complete) ∨
        j = i ∧ ∃ fin, (w'.sessions i).base.marks k = some (true, fin))
    (traces : ∀ j k, next.Traces j k → (stage r).Traces j k ∨ j = i ∧
      k ∉ (w.sessions i).ended) :
    Reflects w' (Function.update stage r next) := by
  have elsewhere : ∀ s, s ≠ r → Function.update stage r next s = stage s :=
    fun s other => Function.update_of_ne other _ _
  have closed : ∀ j k fin, (w.sessions j).base.marks k = some (true, fin) →
      ∃ fin, (w'.sessions j).base.marks k = some (true, fin) := by
    intro j k fin marks
    by_cases own : j = i
    · subst own
      exact follows.closed k fin marks
    · rw [sessions j own]
      exact ⟨fin, marks⟩
  refine ⟨?_, ?_, ?_, ?_, ?_, ?_, ?_, ?_⟩
  · have same : (fun s => (Function.update stage r next s).place) =
        Function.update (fun s => (stage s).place) r next.place := by
      funext s
      by_cases own : s = r <;> simp [own]
    rw [same]
    exact held
  · intro s
    by_cases own : s = r
    · subst own
      rwa [Function.update_self]
    · rw [elsewhere s own, flags s own]
      exact reflects.blocks s
  · intro s past
    have other : s ≠ r := (fresh.2.trans_le past).ne'
    rw [elsewhere s other]
    exact reflects.fresh s (fresh.1.trans past)
  · intro j p v part
    by_cases own : j = i
    · subst own
      exact (fits p v part).1
    · rw [sessions j own] at part
      rw [elsewhere _ (reflects.apart mine own part)]
      exact reflects.fits j p v part
  · intro j p v part
    by_cases own : j = i
    · subst own
      exact (fits p v part).2
    · rw [sessions j own] at part
      rw [flags _ (reflects.apart mine own part)]
      exact reflects.room j p v part
  · intro j k s at_
    by_cases own : s = r
    · subst own
      rw [Function.update_self] at at_
      rcases filling j k at_ with ⟨rfl, now⟩
      exact now
    · rw [elsewhere s own] at at_
      rcases reflects.filling j k s at_ with ⟨v, part, block⟩
      by_cases here : j = i
      · subst here
        exact ⟨v, keeps v part (block ▸ own), block⟩
      · rw [sessions j here]
        exact ⟨v, part, block⟩
  · intro j k complete s at_
    by_cases own : s = r
    · subst own
      rw [Function.update_self] at at_
      rcases dropped j k complete at_ with ⟨before, at_⟩ | ⟨rfl, now⟩
      · rcases reflects.dropped j k before s at_ with ⟨fin, marks⟩
        exact closed j k fin marks
      · exact now
    · rw [elsewhere s own] at at_
      rcases reflects.dropped j k complete s at_ with ⟨fin, marks⟩
      exact closed j k fin marks
  · intro j k member
    have before : k ∈ (w.sessions j).ended ∧ ∃ closed,
        (w'.sessions j).base.marks k = some (closed, true) := by
      by_cases own : j = i
      · subst own
        rw [ended] at member
        rcases (reflects.ended j k member).1 with ⟨closed, marks⟩
        exact ⟨member, follows.ended k closed marks⟩
      · rw [sessions j own] at member ⊢
        exact ⟨member, (reflects.ended j k member).1⟩
    refine ⟨before.2, fun s tracing => ?_⟩
    have none_ := (reflects.ended j k before.1).2 s
    by_cases own : s = r
    · subst own
      rw [Function.update_self] at tracing
      rcases traces j k tracing with was | ⟨rfl, unended⟩
      · exact none_ was
      · exact unended before.1
    · rw [elsewhere s own] at tracing
      exact none_ tracing

end Reflects

end Veil.Mux.Chunks
