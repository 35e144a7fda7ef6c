import Veil.Mux.Handing

/-!
# The slices of a block

`start` and `end` of a block stay inside its bytes, and `end` does not pass
what the reader has read into it.  So no slice of a block is out of range, and
a complete block whose bytes have all been read is one that `Read` returns.
-/

namespace Veil.Mux.Chunks

open Veil.Lib

/-- `c.b[c.start:c.end]` is a slice. -/
def Chunk.Within (c : Chunk) : Prop := c.start ≤ c.end ∧ c.end ≤ c.b.length

theorem Chunk.length_unread {c : Chunk} (within : c.Within) :
    c.unread.length = c.end - c.start := by
  simp only [unread, List.length_drop, List.length_take, min_eq_left within.2]

/-- The positions of all blocks are in range. -/
structure Bounded {ι : Type*} (w : World ι) : Prop where
  within : ∀ r c, w.chunks r = some c → c.Within
  filled : ∀ i r n, (w.sessions i).receive.filled = some (r, n) →
    ∀ c, w.chunks r = some c → c.end ≤ n

theorem Receive.part_of_filled {receive : Receive} {r : Ref} {n : Nat}
    (filled : receive.filled = some (r, n)) : ∃ p v, receive.part = some (p, v) ∧ v.c = r := by
  cases receive <;> cases filled <;> exact ⟨_, _, rfl, rfl⟩

namespace World

variable {ι : Type*} (w : World ι) (r : Ref)

@[simp]
theorem putChunk_chunks : (w.putChunk r).chunks = w.chunks := by
  unfold putChunk
  simp only
  split <;> rfl

@[simp]
theorem putChunk_sessions : (w.putChunk r).sessions = w.sessions := by
  unfold putChunk
  simp only
  split <;> rfl

variable {w r} {f : Chunk → Chunk} {c' : Chunk}

theorem modify_some (now : (w.modify r f).chunks r = some c') :
    ∃ c, w.chunks r = some c ∧ c' = f c := by
  simp only [modify, Function.update_self, Option.map_eq_some_iff] at now
  rcases now with ⟨c, here, rfl⟩
  exact ⟨c, here, rfl⟩

theorem modify_other {s : Ref} (other : s ≠ r) : (w.modify r f).chunks s = w.chunks s :=
  Function.update_of_ne other _ _

end World

namespace Bounded

variable {ι : Type*} [DecidableEq ι] {w w' : World ι} {stage : Ref → Stage ι} {i : ι} {r : Ref}

/-- A piece that changes one block, which no other session fills. -/
theorem change (bounded : Bounded w) (reflects : Reflects w stage)
    (mine : (stage r).reader = none ∨ (stage r).reader = some i)
    (sessions : ∀ j, j ≠ i → w'.sessions j = w.sessions j)
    (chunks : ∀ s, s ≠ r → w'.chunks s = w.chunks s)
    (within : ∀ c, w'.chunks r = some c → c.Within)
    (filled : ∀ s n, (w'.sessions i).receive.filled = some (s, n) →
      ∀ c, w'.chunks s = some c → c.end ≤ n) : Bounded w' where
  within s c here := by
    by_cases own : s = r
    · exact within c (own ▸ here)
    · exact bounded.within s c ((chunks s own).symm.trans here)
  filled j s n now c here := by
    by_cases own : j = i
    · exact filled s n (own ▸ now) c here
    · rw [sessions j own] at now
      rcases Receive.part_of_filled now with ⟨p, v, part, rfl⟩
      rw [chunks v.c (reflects.apart mine own part)] at here
      exact bounded.filled j v.c n now c here

/-- A piece that leaves the blocks, and fills no other one. -/
theorem same (bounded : Bounded w) (sessions : ∀ j, j ≠ i → w'.sessions j = w.sessions j)
    (chunks : w'.chunks = w.chunks)
    (receive : (w'.sessions i).receive.filled = none ∨
      (w'.sessions i).receive.filled = (w.sessions i).receive.filled) : Bounded w' where
  within s c here := bounded.within s c (chunks ▸ here)
  filled j s n now c here := by
    rw [chunks] at here
    by_cases own : j = i
    · subst own
      rcases receive with none_ | same
      · exact nomatch none_.symm.trans now
      · exact bounded.filled j s n (same ▸ now) c here
    · exact bounded.filled j s n (sessions j own ▸ now) c here

theorem take (bounded : Bounded w) (reflects : Reflects w stage) {cached : Option Ref}
    (taken : w.take i cached = some w') : Bounded w' := by
  unfold World.take at taken
  simp only at taken
  split at taken
  · next hd live away at_ =>
      rcases Option.map_eq_some_iff.mp taken with ⟨⟨w₁, r⟩, got, rfl⟩
      rcases reflects.takeChunk got with ⟨-, -, -, -, -, source⟩
      have mine : (stage r).reader = none ∨ (stage r).reader = some i := by
        rcases source with ⟨_, was, -⟩ | ⟨was, -⟩ <;> exact .inl (by rw [was]; rfl)
      have empty : (∀ s, s ≠ r → w₁.chunks s = w.chunks s) ∧ w₁.sessions = w.sessions ∧
          ∀ c, w₁.chunks r = some c → c.start = 0 ∧ c.end = 0 := by
        rcases World.takeChunk_cases got with ⟨size, -, -, ⟨-, rfl⟩ | ⟨rfl, rfl⟩⟩
        · refine ⟨fun s => World.modify_other, rfl, fun c here => ?_⟩
          rcases World.modify_some here with ⟨_, -, rfl⟩
          exact ⟨rfl, rfl⟩
        · refine ⟨fun s other => Function.update_of_ne other _ _, rfl, fun c here => ?_⟩
          cases (Function.update_self _ _ _).symm.trans here
          exact ⟨rfl, rfl⟩
      refine bounded.change (i := i) reflects mine ?_ empty.1 ?_ ?_
      · intro j other
        exact (World.setLocal_other w₁ i _ other).trans (congrFun empty.2.1 j)
      · intro c here
        rcases empty.2.2 c here with ⟨start, end_⟩
        exact ⟨by omega, by omega⟩
      · intro s n now c here
        rw [World.setLocal_self] at now
        cases now
        exact (empty.2.2 c here).2.le
  · cases taken

theorem place (bounded : Bounded w) (reflects : Reflects w stage)
    (tidy : ∀ i, (w.sessions i).Tidy) (taken : w.place i = some w') : Bounded w' := by
  unfold World.place at taken
  simp only at taken
  split at taken
  · next v free at_ =>
      have part : (w.sessions i).receive.part = some (.taken, v) := by rw [at_]; rfl
      have was : stage v.c = .taken i := reflects.fits i _ v part
      have begins := fun l : Local =>
        l.proceed_begins (v := v) ((tidy i).length_pos part).1
      split_ifs at taken <;> cases taken <;> rw [begins]
      · refine bounded.same (i := i) (fun j => World.setLocal_other _ _ _) rfl (.inr ?_)
        rw [World.setLocal_self, at_]
        rfl
      · refine bounded.change (r := v.c) reflects (.inr (by rw [was]; rfl))
          (fun j => World.setLocal_other _ _ _) (fun s => World.modify_other) ?_ ?_
        · intro c' here
          rcases World.modify_some here with ⟨c, before, rfl⟩
          exact bounded.within v.c c before
        · intro s n now c' here
          rw [World.setLocal_self] at now
          cases now
          rcases World.modify_some here with ⟨c, before, rfl⟩
          exact bounded.filled i v.c 0 (by rw [at_]; rfl) c before
  · cases taken

theorem arrive (bounded : Bounded w) (reflects : Reflects w stage) {bs : List Byte}
    {e : Option Err} (taken : w.arrive i bs e = some w') : Bounded w' := by
  unfold World.arrive at taken
  simp only at taken
  split at taken
  · next v got at_ =>
      split_ifs at taken with fits
      cases taken
      have part : (w.sessions i).receive.part = some (.filling, v) := by rw [at_]; rfl
      refine bounded.change (r := v.c) reflects (.inr (reflects.fits i _ v part).reader)
        (fun j => World.setLocal_other _ _ _) (fun s => World.modify_other) ?_ ?_
      · intro c' here
        rcases World.modify_some here with ⟨c, before, rfl⟩
        have within := bounded.within v.c c before
        have grown : c.b.length ≤ (c.write got.length bs).b.length := by
          simp only [Chunk.write, List.length_append, List.length_take, List.length_drop]
          omega
        exact ⟨within.1, within.2.trans grown⟩
      · intro s n now c' here
        rw [World.setLocal_self] at now
        cases now
        rcases World.modify_some here with ⟨c, before, rfl⟩
        have filled := bounded.filled i v.c got.length (by rw [at_]; rfl) c before
        exact filled.trans (by simp)
  · cases taken

theorem publish (bounded : Bounded w) (reflects : Reflects w stage)
    (taken : w.publish i = some w') : Bounded w' := by
  unfold World.publish at taken
  simp only at taken
  split at taken
  · next v got n err fits free at_ =>
      cases taken
      have part : (w.sessions i).receive.part = some (.filling, v) := by rw [at_]; rfl
      rcases (w.sessions i).published_cases err fits n
        ((w.chunks v.c).any Chunk.discard) with ⟨s, receive, same, -, filled, -⟩
      rw [same]
      refine bounded.change (r := v.c) reflects (.inr (reflects.fits i _ v part).reader)
        (fun j => World.setLocal_other _ _ _) (fun s => World.modify_other) ?_ ?_
      · intro c' here
        rcases World.modify_some here with ⟨c, before, rfl⟩
        have end_ := bounded.filled i v.c got.length (by rw [at_]; rfl) c before
        have room := reflects.room i _ v part c.complete c.discard c.b.length (by
          simp [World.flags, before, Chunk.flags])
        exact ⟨(bounded.within v.c c before).1.trans end_, fits.trans room⟩
      · intro s n now c' here
        rw [World.setLocal_self] at now
        rcases filled with none_ | some_
        · cases none_.symm.trans now
        · cases some_.symm.trans now
          rcases World.modify_some here with ⟨c, before, rfl⟩
          exact le_rfl
  · cases taken

theorem giveBack (bounded : Bounded w) (taken : w.giveBack i = some w') : Bounded w' := by
  unfold World.giveBack at taken
  simp only at taken
  split at taken
  · next v got err done at_ =>
      cases taken
      refine bounded.same (i := i) ?_ ?_ (.inl ?_)
      · intro j other
        rw [World.setLocal_other _ _ _ other, World.putChunk_sessions]
      · exact w.putChunk_chunks v.c
      · rw [World.setLocal_self]
        rcases (w.sessions i).proceed_cases v got err with ⟨fine, more, -⟩ | ⟨-, s, same, -⟩
        · rcases done with whole | failed
          · exact absurd whole more.ne
          · simp [fine] at failed
        · rw [same]
          rfl
  · cases taken

/-! ## `Read` and `closeLocked` -/

/-- A piece of a session that reads or discards the first block of a queue. -/
theorem front (bounded : Bounded w) (reflects : Reflects w stage) {k : Nat} {f : Chunk → Chunk}
    (member : r ∈ (w.sessions i).blocks k)
    (positions : ∀ c, w.chunks r = some c → (f c).Within ∧ (f c).end = c.end) :
    Bounded (w.modify r f) := by
  refine bounded.change (r := r) reflects (reflects.of_mem_blocks member).2 (fun _ _ => rfl)
    (fun s => World.modify_other) ?_ ?_
  · intro c' here
    rcases World.modify_some here with ⟨c, before, rfl⟩
    exact (positions c before).1
  · intro s n now c' here
    by_cases own : s = r
    · subst own
      rcases World.modify_some here with ⟨c, before, rfl⟩
      rw [(positions c before).2]
      exact bounded.filled i s n now c before
    · exact bounded.filled i s n now c' (World.modify_other own ▸ here)

/-- A piece that changes neither blocks nor `receive`. -/
theorem unmoved (bounded : Bounded w) {l : Local} (chunks : w'.chunks = w.chunks)
    (sessions : w'.sessions = w.sessions) (receive : l.receive = (w.sessions i).receive) :
    Bounded (w'.setLocal i l) := by
  refine bounded.same (i := i) (fun j other => ?_) chunks (.inr ?_)
  · rw [World.setLocal_other _ _ _ other, sessions]
  · rw [World.setLocal_self, receive]

/-- `Read` takes at most the bytes that have been published. -/
theorem read_within {c : Chunk} (within : c.Within) (room : Nat) :
    c.start + (c.unread.take room).length ≤ c.end := by
  have unread := Chunk.length_unread within
  simp only [List.length_take, unread]
  have := within.1
  omega

theorem drain (bounded : Bounded w) (reflects : Reflects w stage)
    (tidy : (w.sessions i).Tidy) {k room : Nat} {got : List Byte}
    (lock : (w.sessions i).lock = .draining k room got false)
    (taken : w.drain i k room got = some w') : Bounded w' := by
  have finish : ∀ got, ((w.sessions i).finishRead k got none).receive =
      (w.sessions i).receive := by
    intro got
    rcases (w.sessions i).finishRead_cases (tidy.known lock) got none with ⟨s, ended, same, -⟩
    rw [same]
  rcases World.drain_cases tidy lock taken with ⟨-, rfl⟩ | ⟨r, rest, c, queue, here, ⟨-, rfl⟩ |
    ⟨-, bytes, after, read, changed, outcome⟩⟩
  · exact bounded.unmoved rfl rfl (finish got)
  · exact bounded.unmoved rfl rfl (finish got)
  · have member : r ∈ (w.sessions i).blocks k := by
      rw [Local.blocks_row (by simp only [Local.stale, lock]) queue]
      exact List.mem_cons_self
    have moved : Bounded after := by
      rw [changed]
      refine bounded.front reflects member fun c' before => ⟨⟨?_, ?_⟩, rfl⟩
      · cases here.symm.trans before
        rw [read]
        exact read_within (bounded.within r c here) room
      · exact (bounded.within r c' before).2
    have sessions : after.sessions = w.sessions := by rw [changed]; rfl
    rcases outcome with ⟨-, rfl⟩ | ⟨-, rfl⟩
    · refine moved.unmoved rfl rfl ?_
      rw [finish, sessions]
    · exact moved.unmoved (after.putChunk_chunks r) (after.putChunk_sessions r) (by rw [sessions])

theorem shift (bounded : Bounded w) (tidy : (w.sessions i).Tidy) {k room : Nat}
    {got : List Byte} (lock : (w.sessions i).lock = .draining k room got true) (draw : Nat) :
    Bounded (w.shift i k room got draw) := by
  rcases World.shift_cases tidy lock draw with ⟨r, rest, n, s, lock', -, same, -⟩
  rw [same]
  exact bounded.unmoved rfl rfl rfl

theorem sweep (bounded : Bounded w) (reflects : Reflects w stage)
    (tidy : (w.sessions i).Tidy) (taken : w.sweep i = some w') : Bounded w' := by
  rcases World.sweep_cases tidy taken with ⟨k, n, put, byReader, lock, ⟨-, -, rfl⟩ |
    ⟨r, rest, queue, ⟨-, rfl⟩ | ⟨rfl, c, here, ⟨-, rfl⟩ | ⟨-, rfl⟩⟩⟩⟩
  · exact bounded.unmoved rfl rfl rfl
  · exact bounded.unmoved rfl rfl rfl
  · exact bounded.unmoved (w.putChunk_chunks r) (w.putChunk_sessions r) rfl
  · have member : r ∈ (w.sessions i).blocks k := by
      rw [Local.blocks_row (by simp only [Local.stale, lock]) queue]
      exact List.mem_cons_self
    have moved := bounded.front (f := fun c => { c with discard := true }) reflects member
      fun c before => ⟨bounded.within r c before, rfl⟩
    exact moved.unmoved rfl rfl rfl

theorem read (bounded : Bounded w) {k n : Nat} (taken : w.read i k n = some w') :
    Bounded w' := by
  unfold World.read at taken
  simp only at taken
  split at taken
  · split_ifs at taken <;> cases taken
    · exact bounded
    · exact bounded.unmoved rfl rfl rfl
  · cases taken

theorem session (bounded : Bounded w) {a : Session.Action} (taken : w.session i a = some w') :
    Bounded w' := by
  unfold World.session at taken
  simp only at taken
  split_ifs at taken
  rcases Option.map_eq_some_iff.mp taken with ⟨s, -, rfl⟩
  exact bounded.unmoved rfl rfl rfl

omit [DecidableEq ι] in
theorem evict (bounded : Bounded w) {size : Nat} (taken : w.evict size r = some w') :
    Bounded w' := by
  unfold World.evict at taken
  split_ifs at taken
  cases taken
  have shrinks : ∀ s c, Function.update w.chunks r none s = some c → w.chunks s = some c := by
    intro s c here
    by_cases own : s = r
    · subst own
      exact nomatch (Function.update_self s _ w.chunks).symm.trans here
    · exact (Function.update_of_ne own _ w.chunks).symm.trans here
  exact ⟨fun s c here => bounded.within s c (shrinks s c here),
    fun j s n now c here => bounded.filled j s n now c (shrinks s c here)⟩

end Bounded

end Veil.Mux.Chunks
