import Veil.Mux.Owned

/-!
# What `receive` does with its block

One theorem for each piece of `receive`: it moves one block along its life, or
none, and the process then reflects the new stages.
-/

namespace Veil.Mux.Chunks

open Veil.Lib

section Places

variable {ι : Type*} {i : ι}

theorem Stage.of_place_cache {stage : Stage ι} {size : Nat}
    (here : stage.place = some (.cache size)) : stage = .cached size := by
  cases stage <;> cases here
  rfl

/-- The block is in the queue of the stream, complete or not. -/
theorem Stage.of_place_queue {stage : Stage ι} {k : Nat}
    (here : stage.place = some (.queue i k)) : ∃ complete, stage = .queued i k complete := by
  cases stage <;> cases here
  exact ⟨_, rfl⟩

end Places

variable {ι : Type*} [DecidableEq ι] {w w' : World ι} {stage : Ref → Stage ι} {i : ι}

namespace Reflects

/-- A block with a stage has been allocated. -/
theorem allocated (reflects : Reflects w stage) {r : Ref} (some_ : stage r ≠ .absent) :
    r < w.next := by
  by_contra past
  exact some_ (reflects.fresh r (not_lt.mp past))

/-- A block in a queue is used by no other session. -/
theorem of_mem_blocks (reflects : Reflects w stage) {k : Nat} {r : Ref}
    (member : r ∈ (w.sessions i).blocks k) : (∃ complete, stage r = .queued i k complete) ∧
      ((stage r).reader = none ∨ (stage r).reader = some i) := by
  have place := (reflects.held.mem_iff (p := .queue i k)).mp member
  rcases Stage.of_place_queue place with ⟨complete, was⟩
  refine ⟨⟨complete, was⟩, ?_⟩
  rw [was]
  cases complete
  · exact .inr rfl
  · exact .inl rfl

/-- A piece that moves a block, with the calls this makes. -/
theorem advances (next : Stage ι) {r : Ref} {made : List (Entry ι)}
    (moved : Stage.Move r (stage r) next made) (calls : w'.calls = w.calls ++ made)
    (reflects : Reflects w' (Function.update stage r next)) :
    ∃ stage', Advance stage w.calls stage' w'.calls ∧ Reflects w' stage' :=
  ⟨_, calls ▸ .move moved, reflects⟩

/-- A piece that moves no block. -/
theorem stays (calls : w'.calls = w.calls) (reflects : Reflects w' stage) :
    ∃ stage', Advance stage w.calls stage' w'.calls ∧ Reflects w' stage' :=
  ⟨stage, calls ▸ .stay, reflects⟩

/-- What `takeChunk` returns: a block from a cache, or a new one, with its flags reset. -/
theorem takeChunk (reflects : Reflects w stage) {n : Nat} {cached : Option Ref} {r : Ref}
    (taken : w.takeChunk n cached = some (w', r)) :
    w'.sessions = w.sessions ∧ w'.calls = w.calls ++ [.take r] ∧
      (∃ size ∈ blockCapacities, n ≤ size ∧ w'.flags r = some (false, false, size)) ∧
      (∀ s, s ≠ r → w'.flags s = w.flags s) ∧ (w.next ≤ w'.next ∧ r < w'.next) ∧
      ((∃ size, stage r = .cached size ∧
          (w.blockCaches size).Perm (r :: w'.blockCaches size) ∧
          ∀ size', size' ≠ size → w'.blockCaches size' = w.blockCaches size') ∨
        stage r = .absent ∧ w'.blockCaches = w.blockCaches) := by
  rcases World.takeChunk_cases taken with ⟨size, known, fits, ⟨member, rfl⟩ | ⟨rfl, rfl⟩⟩
  · have at_ : stage r = .cached size :=
      Stage.of_place_cache ((reflects.held.mem_iff (p := .cache size)).mp member)
    have flags := reflects.blocks r
    rw [at_] at flags
    rcases flags with ⟨-, complete, discard, flags⟩
    rcases Option.map_eq_some_iff.mp flags with ⟨c, here, same⟩
    have capacity : c.b.length = size := congrArg (·.2.2) same
    have reset : (w.modify r Chunk.reset).flags r = some (false, false, size) := by
      simp [World.modify_flags_self, here, Chunk.flags, Chunk.reset, capacity]
    refine ⟨rfl, rfl, ⟨size, known, fits, reset⟩, fun s => World.modify_flags_other w r _,
      ⟨le_rfl, reflects.allocated (by simp [at_])⟩, .inl ⟨size, at_, ?_, fun size' other => ?_⟩⟩
    · simpa using List.perm_cons_erase member
    · exact Function.update_of_ne other _ _
  · refine ⟨rfl, rfl, ⟨size, known, fits, ?_⟩, fun s other => ?_,
      ⟨Nat.le_succ _, Nat.lt_succ_self _⟩, .inr ⟨reflects.fresh _ le_rfl, rfl⟩⟩
    · simp [World.flags, Chunk.flags, Chunk.new]
    · simp [World.flags, other]

theorem take (reflects : Reflects w stage) {cached : Option Ref}
    (taken : w.take i cached = some w') :
    ∃ stage', Advance stage w.calls stage' w'.calls ∧ Reflects w' stage' := by
  unfold World.take at taken
  simp only at taken
  split at taken
  · next hd live away at_ =>
      rcases Option.map_eq_some_iff.mp taken with ⟨⟨w₁, r⟩, got, rfl⟩
      rcases reflects.takeChunk got with
        ⟨sessions, calls, ⟨size, known, fits, reset⟩, other, fresh, source⟩
      have mine : (stage r).reader = none ∨ (stage r).reader = some i := by
        rcases source with ⟨_, was, -⟩ | ⟨was, -⟩ <;> exact .inl (by rw [was]; rfl)
      have moved : Stage.Move r (stage r) (.taken i) [.take r] := by
        rcases source with ⟨size, was, -⟩ | ⟨was, -⟩ <;> rw [was]
        · exact .reuse i size
        · exact .make i
      have elsewhere : ∀ l j, j ≠ i → (w₁.setLocal i l).sessions j = w.sessions j :=
        fun l j different => sessions ▸ World.setLocal_other w₁ i l different
      refine advances (.taken i) moved calls (reflects.move mine (elsewhere _) other ?_
        ⟨size, known, reset⟩ fresh ?_ (by simp) ?_ (.same ?_) ?_ (by simp)
        fun _ _ => False.elim)
      · have empty : w.held (.reader i) = [] := by
          simp [World.held, Receive.inHand, away, Receive.part]
        generalize made : w₁.setLocal i { w.sessions i with
          receive := .taken ⟨hd, live, r⟩ } = w'
        have own : w'.sessions i = { w.sessions i with receive := .taken ⟨hd, live, r⟩ } := by
          rw [← made, World.setLocal_self]
        have gained : (w'.held (.reader i)).Perm (r :: w.held (.reader i)) := by
          rw [empty, World.held, own]
          exact .refl _
        have frame : ∀ o, o ≠ .reader i →
            (∀ size, o = .cache size → w'.held o = w.held o) → w'.held o = w.held o := by
          intro o notReader caches
          subst made
          refine reflects.frame mine (elsewhere _) other o (fun same => (notReader same).elim)
            ?_ caches
          rintro k rfl
          exact (congrArg (Local.blocks · k) own).trans rfl
        have caches : w'.blockCaches = w₁.blockCaches := by rw [← made]; rfl
        rcases source with ⟨size, was, lost, rest⟩ | ⟨was, same⟩
        · refine reflects.held.transfer (p := .cache size) (by simp) ?_ gained ?_
          · rwa [World.held, World.held, caches]
          · intro o notCache notReader
            refine frame o notReader ?_
            rintro size' rfl
            rw [World.held, World.held, caches]
            exact rest size' fun same => notCache (by rw [same])
        · refine reflects.held.enter (by rw [was]; rfl) gained fun o notReader => ?_
          refine frame o notReader ?_
          rintro size rfl
          rw [World.held, World.held, caches, same]
      · intro p v part
        simp only [World.setLocal_self, Receive.part, Option.some.injEq, Prod.mk.injEq] at part
        rcases part with ⟨rfl, rfl⟩
        refine ⟨Function.update_self _ _ _, fun _ _ size' flags' => ?_⟩
        cases reset.symm.trans flags'
        exact fits
      · simp [away, Receive.part]
      · simp
      · simp
  · cases taken

/-- The first piece of `receive` that reads the stream; the payload is not empty. -/
theorem place (reflects : Reflects w stage) (tidy : ∀ i, (w.sessions i).Tidy)
    (taken : w.place i = some w') :
    ∃ stage', Advance stage w.calls stage' w'.calls ∧ Reflects w' stage' := by
  unfold World.place at taken
  simp only at taken
  split at taken
  · next v free at_ =>
      have part : (w.sessions i).receive.part = some (.taken, v) := by rw [at_]; rfl
      have was : stage v.c = .taken i := reflects.fits i _ v part
      have mine : (stage v.c).reader = none ∨ (stage v.c).reader = some i :=
        .inr (by rw [was]; rfl)
      have flags := reflects.blocks v.c
      rw [was] at flags
      rcases flags with ⟨size, known, flags⟩
      have begins := fun l : Local =>
        l.proceed_begins (v := v) ((tidy i).length_pos part).1
      have hand : w.held (.reader i) = [v.c] := by
        simp [World.held, Receive.inHand, part]
      have fresh : w.next ≤ w.next ∧ v.c < w.next :=
        ⟨le_rfl, reflects.allocated (by simp [was])⟩
      split_ifs at taken with accepted <;> cases taken <;> rw [begins]
      · simp only [Local.accepts, Bool.and_eq_true, decide_eq_true_eq] at accepted
        have moved : Stage.Move v.c (stage v.c) (.queued i v.hd.id false)
            [.queue i v.hd.id v.c] := was ▸ .queue i v.hd.id
        refine advances _ moved rfl (reflects.move mine (fun j => World.setLocal_other _ _ _)
          (fun _ _ => rfl) ?_ ⟨size, known, flags⟩ fresh ?_ ?_ ?_ (.same ?_) ?_ (by simp) ?_)
        · refine reflects.held.transfer (p := .reader i) (by simp) ?_ ?_ ?_
          · rcases Option.map_eq_some_iff.mp flags with ⟨c, here, same⟩
            have kept : c.discard = false := congrArg (·.2.1) same
            rw [hand]
            simp [World.held, World.setLocal, Receive.inHand, Receive.part, here, kept]
          · have appended := Local.blocks_append free v.hd.id v.c
            simp only [World.held, World.setLocal_self]
            exact appended ▸ List.perm_append_singleton _ _
          · intro o notReader notQueue
            refine reflects.frame mine (fun j => World.setLocal_other _ _ _) (fun _ _ => rfl) o
              (fun same => (notReader same).elim) ?_ ?_
            · rintro k rfl
              have other : k ≠ v.hd.id := fun same => notQueue (by rw [same])
              simp only [World.held, World.setLocal_self]
              exact Local.blocks_append_other free other v.c
            · rintro size rfl
              rfl
        · intro p v' part'
          simp only [World.setLocal_self, Receive.part, Option.some.injEq, Prod.mk.injEq] at part'
          rcases part' with ⟨rfl, rfl⟩
          exact ⟨.inl ⟨Function.update_self _ _ _, accepted.1.1⟩, reflects.room i _ v part⟩
        · rintro j k ⟨⟩
          exact ⟨rfl, v, by simp [Receive.part], rfl⟩
        · simp [part]
        · simp [Local.append]
        · simp [Local.append]
        · rintro j k ⟨rfl, rfl⟩
          refine .inr ⟨rfl, fun member => ?_⟩
          have at_ := (tidy i).receiving _ v part
          rw [accepted.1.1] at at_
          rcases (tidy i).based.live v.hd at_ with ⟨closed, marks⟩
          rcases (reflects.ended i _ member).1 with ⟨_, ended⟩
          cases marks.symm.trans ended
      · have discarded : (w.modify v.c fun c => { c with discard := true }).flags v.c =
            some (false, true, size) := by
          rw [World.modify_flags_map _ _ _ (fun f => (f.1, true, f.2.2)) fun _ => rfl, flags]
          rfl
        have other := fun s => World.modify_flags_other w v.c (s := s)
          fun c => { c with discard := true }
        refine advances (.dropped i none false) (was ▸ .refuse i) (List.append_nil _).symm
          (reflects.move mine (fun j => World.setLocal_other _ _ _) other ?_
            ⟨size, known, discarded⟩ fresh ?_ (by simp) ?_ (.same ?_) ?_ (by simp) ?_)
        · refine reflects.held_still mine (fun j => World.setLocal_other _ _ _) other
            (by rw [was]; rfl) ?_ (fun k => ?_) rfl
          · have kept := World.discard_of_flags discarded
            rw [hand]
            simp only [World.held, World.setLocal_self, Receive.inHand, Receive.part]
            exact if_pos kept
          · rw [World.setLocal_self]
            rfl
        · intro p v' part'
          simp only [World.setLocal_self, Receive.part, Option.some.injEq, Prod.mk.injEq] at part'
          rcases part' with ⟨rfl, rfl⟩
          refine ⟨.inr ⟨none, Function.update_self _ _ _⟩, fun _ _ size' flags' => ?_⟩
          cases discarded.symm.trans flags'
          exact reflects.room i _ v part _ _ size flags
        · simp [part]
        · simp
        · simp
        · rintro j k ⟨-, left⟩
          cases left
  · cases taken

theorem arrive (reflects : Reflects w stage) {bs : List Byte} {e : Option Err}
    (taken : w.arrive i bs e = some w') :
    ∃ stage', Advance stage w.calls stage' w'.calls ∧ Reflects w' stage' := by
  unfold World.arrive at taken
  simp only at taken
  split at taken
  · next v got at_ =>
      split_ifs at taken with fits
      cases taken
      have part : (w.sessions i).receive.part = some (.filling, v) := by rw [at_]; rfl
      have flags : ∀ s, (w.modify v.c fun c => c.write got.length bs).flags s = w.flags s := by
        intro s
        refine w.modify_flags_same v.c _ (fun c here => ?_) s
        have room := reflects.room i _ v part c.complete c.discard c.b.length (by
          simp [World.flags, here, Chunk.flags])
        have fits := fits.2
        simp only [List.length_append] at fits
        simp only [Chunk.flags, Chunk.write, List.length_append, List.length_take,
          List.length_drop, Prod.mk.injEq, true_and]
        omega
      refine stays rfl (reflects.stay i ?_ flags rfl rfl ?_ ?_ (.same ?_) ?_)
      · exact fun j => World.setLocal_other _ _ _
      · intro k
        rw [World.setLocal_self]
        rfl
      · rw [World.setLocal_self, part]
        rfl
      · rw [World.setLocal_self]
        exact fun _ => rfl
      · rw [World.setLocal_self]
        exact fun k => .inl
  · cases taken

/-- The block of a call of `receive` that fills it, as its stage describes it. -/
theorem filled (reflects : Reflects w stage) {v : Receiving}
    (part : (w.sessions i).receive.part = some (.filling, v)) :
    ∃ size ∈ blockCapacities,
      (stage v.c = .queued i v.hd.id false ∧ v.live = true ∧
          w.flags v.c = some (false, false, size)) ∨
        ∃ left, stage v.c = .dropped i left false ∧ w.flags v.c = some (false, true, size) := by
  have flags := reflects.blocks v.c
  rcases reflects.fits i _ v part with ⟨was, live⟩ | ⟨left, was⟩ <;> rw [was] at flags <;>
    rcases flags with ⟨size, known, flags⟩
  · exact ⟨size, known, .inl ⟨was, live, flags⟩⟩
  · exact ⟨size, known, .inr ⟨left, was, flags⟩⟩

theorem publish (reflects : Reflects w stage) (taken : w.publish i = some w') :
    ∃ stage', Advance stage w.calls stage' w'.calls ∧ Reflects w' stage' := by
  unfold World.publish at taken
  simp only at taken
  split at taken
  · next v got n err fits free at_ =>
      cases taken
      have part : (w.sessions i).receive.part = some (.filling, v) := by rw [at_]; rfl
      rcases reflects.filled part with ⟨size, known, placed⟩
      have marked : ∃ discard, w.flags v.c = some (false, discard, size) := by
        rcases placed with ⟨-, -, flags⟩ | ⟨left, -, flags⟩ <;> exact ⟨_, flags⟩
      rcases marked with ⟨discard, flags⟩
      have flags' := World.published_flags got (decide (v.Done got err)) flags
      have other := fun s => w.modify_flags_other v.c (s := s) fun c => { c with
        «end» := got.length, complete := decide (v.Done got err) }
      rw [World.discard_of_flags flags]
      rcases (w.sessions i).published_cases err fits n discard with
        ⟨s, receive, same, marks, -, outcome⟩
      rw [same]
      have sessions := fun j => World.setLocal_other (w.modify v.c fun c => { c with
        «end» := got.length, complete := decide (v.Done got err) }) i
        { w.sessions i with base := s, receive := receive } (j := j)
      have fresh : stage v.c ≠ .absent → w.next ≤ w.next ∧ v.c < w.next :=
        fun some_ => ⟨le_rfl, reflects.allocated some_⟩
      have complete : ∀ _ : v.Done got err, _ = some (true, discard, size) :=
        fun done => flags'.trans (by rw [decide_eq_true done])
      have used : ∀ v', (w.sessions i).receive.part = some (.filling, v') → ¬ v'.c ≠ v.c := by
        intro v' now
        cases part.symm.trans now
        exact fun different => different rfl
      rcases outcome with ⟨undone, part'⟩ | ⟨done, rfl, part'⟩ | ⟨done, rfl, part'⟩
      · refine stays rfl (reflects.stay i sessions (fun s => ?_) rfl rfl (fun k => ?_) ?_
          (.same ?_) ?_)
        · by_cases own : s = v.c
          · rw [own]
            exact flags'.trans (by rw [decide_eq_false undone, flags])
          · exact other s own
        · rw [World.setLocal_self]
          rfl
        · rw [World.setLocal_self]
          exact part'.trans part.symm
        · rw [World.setLocal_self]
          exact marks
        · rw [World.setLocal_self]
          exact fun k => .inl
      · rcases placed with ⟨-, -, plain⟩ | ⟨left, was, -⟩
        · cases flags.symm.trans plain
        refine advances (.dropped i left true) (was ▸ .waste i left) (List.append_nil _).symm
          (reflects.move (.inr (by rw [was]; rfl)) sessions other ?_
            ⟨size, known, complete done⟩ (fresh (by simp [was])) ?_ (by simp) ?_ (.same ?_) ?_ ?_ ?_)
        · refine reflects.held_still (.inr (by rw [was]; rfl)) sessions other (by rw [was]; rfl)
            ?_ (fun k => by rw [World.setLocal_self]; rfl) rfl
          have before := World.discard_of_flags flags
          simp only [World.held, World.setLocal_self, Receive.inHand, part, part', before, if_true]
        · intro p v' now
          rw [World.setLocal_self] at now
          cases part'.symm.trans now
          refine ⟨⟨left, Function.update_self _ _ _⟩, fun _ _ size' flags'' => ?_⟩
          cases (complete done).symm.trans flags''
          exact reflects.room i _ v part _ _ size flags
        · exact fun v' now different => (used v' now different).elim
        · rw [World.setLocal_self]
          exact marks
        · rw [World.setLocal_self]
        · rintro j k _ ⟨⟩
          exact .inl ⟨false, was⟩
        · intro j k traces
          rw [was]
          exact .inl traces
      · rcases placed with ⟨was, -, -⟩ | ⟨left, -, plain⟩
        · refine advances (.queued i v.hd.id true) (was ▸ .fill i v.hd.id)
            (List.append_nil _).symm (reflects.move (.inr (by rw [was]; rfl)) sessions other ?_
              ⟨size, known, complete done⟩ (fresh (by simp [was])) ?_ (by simp) ?_ (.same ?_) ?_
              (by simp) ?_)
          · refine reflects.held_still (.inr (by rw [was]; rfl)) sessions other
              (by rw [was]; rfl) ?_ (fun k => by rw [World.setLocal_self]; rfl) rfl
            have before := World.discard_of_flags flags
            simp only [World.held, World.setLocal_self, Receive.inHand, part, part', before,
              Bool.false_eq_true, if_false]
          · intro p v' now
            rw [World.setLocal_self] at now
            cases part'.symm.trans now
          · exact fun v' now different => (used v' now different).elim
          · rw [World.setLocal_self]
            exact marks
          · rw [World.setLocal_self]
          · intro j k traces
            rw [was]
            exact .inl traces
        · cases flags.symm.trans plain
  · cases taken

/-- `receive` ends and returns its block, which no queue refers to. -/
theorem giveBack (reflects : Reflects w stage) (taken : w.giveBack i = some w') :
    ∃ stage', Advance stage w.calls stage' w'.calls ∧ Reflects w' stage' := by
  unfold World.giveBack at taken
  simp only at taken
  split at taken
  · next v got err done at_ =>
      cases taken
      have part : (w.sessions i).receive.part = some (.giving, v) := by rw [at_]; rfl
      rcases reflects.fits i _ v part with ⟨left, was⟩
      have mine : (stage v.c).reader = none ∨ (stage v.c).reader = some i :=
        .inr (by rw [was]; rfl)
      have flags := reflects.blocks v.c
      rw [was] at flags
      rcases flags with ⟨size, known, flags⟩
      rw [World.putChunk_eq flags known]
      rcases (w.sessions i).proceed_cases v got err with
        ⟨fine, more, -⟩ | ⟨-, s, same, marks⟩
      · rcases done with whole | failed
        · exact absurd whole more.ne
        · simp [fine] at failed
      rw [same]
      have sessions := fun j => World.setLocal_other { w with
        blockCaches := Function.update w.blockCaches size (v.c :: w.blockCaches size)
        calls := w.calls ++ [.put v.c] } i
        { w.sessions i with receive := .away, base := s } (j := j)
      refine advances (.cached size) (was ▸ .giveBack i left size) rfl
        (reflects.move mine sessions (fun _ _ => rfl) ?_ ⟨known, _, _, flags⟩
          ⟨le_rfl, reflects.allocated (by simp [was])⟩ ?_ (by simp) ?_ (.same ?_) ?_ (by simp)
          fun _ _ => False.elim)
      · refine reflects.held.transfer (p := .reader i) (by simp) ?_ ?_ fun o notReader notCache => ?_
        · have before : w.held (.reader i) = [v.c] := by simp [World.held, Receive.inHand, part]
          rw [before]
          simp [World.held, Receive.inHand, Receive.part]
        · simp [World.held]
        · refine reflects.frame mine sessions (fun _ _ => rfl) o
            (fun same => (notReader same).elim) ?_ ?_
          · rintro k rfl
            simp only [World.held, World.setLocal_self]
            rfl
          · rintro size' rfl
            exact Function.update_of_ne (fun same => notCache (by rw [same])) _ _
      · intro p v' now
        rw [World.setLocal_self] at now
        cases now
      · simp [part]
      · rw [World.setLocal_self]
        exact marks
      · rw [World.setLocal_self]
  · cases taken

end Reflects

end Veil.Mux.Chunks
