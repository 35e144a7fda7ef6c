import Veil.Mux.Slices

/-!
# What `Read` and `closeLocked` do with the blocks of a queue

`Read` returns a block that is complete and read, the loop of `closeLocked` a
complete one, and drops one that the reader still fills.  Only the block at the
cursor leaves the queue.  A `Read` that reports the end of a stream has found
its queue empty, because a block that is still filled is the reader's, and the
FIN of its stream has then not come.
-/

namespace Veil.Mux.Chunks

open Veil.Lib

variable {ι : Type*} [DecidableEq ι] {w w' : World ι} {stage : Ref → Stage ι} {i : ι}

namespace Reflects

/-- A complete block at the front of a queue is returned. -/
theorem putQueued (reflects : Reflects w stage) {k : Nat} {r : Ref} {lock : Lock}
    (was : stage r = .queued i k true)
    (front : (w.sessions i).blocks k = r :: Local.blocks { w.sessions i with lock := lock } k)
    (others : ∀ j, j ≠ k →
      Local.blocks { w.sessions i with lock := lock } j = (w.sessions i).blocks j) :
    ∃ stage',
      Advance stage w.calls stage'
        ((w.putChunk r).setLocal i { w.sessions i with lock := lock }).calls ∧
      Reflects ((w.putChunk r).setLocal i { w.sessions i with lock := lock }) stage' := by
  have flags := reflects.blocks r
  rw [was] at flags
  rcases flags with ⟨size, known, flags⟩
  have mine : (stage r).reader = none ∨ (stage r).reader = some i := .inl (by rw [was]; rfl)
  rw [World.putChunk_eq flags known]
  have sessions := fun j => World.setLocal_other { w with
    blockCaches := Function.update w.blockCaches size (r :: w.blockCaches size)
    calls := w.calls ++ [.put r] } i { w.sessions i with lock := lock } (j := j)
  refine advances (.cached size) (was ▸ .put i k size) rfl
    (reflects.move mine sessions (fun _ _ => rfl) ?_ ⟨known, _, _, flags⟩
      ⟨le_rfl, reflects.allocated (by simp [was])⟩ ?_ (by simp) ?_ (.same ?_) ?_ (by simp)
      fun _ _ => False.elim)
  · refine reflects.held.transfer (p := .queue i k) (by simp) ?_ ?_ fun o notQueue notCache => ?_
    · simp only [World.held, World.setLocal_self, front]
      exact .refl _
    · simp [World.held]
    · refine reflects.frame mine sessions (fun _ _ => rfl) o ?_ ?_ ?_
      · rintro rfl
        simp only [World.held, World.setLocal_self]
        rfl
      · rintro j rfl
        simp only [World.held, World.setLocal_self]
        exact others j fun same => notQueue (by rw [same])
      · rintro size' rfl
        exact Function.update_of_ne (fun same => notCache (by rw [same])) _ _
  · intro p v part
    rw [World.setLocal_self] at part
    have fits := reflects.fits i p v part
    have other : v.c ≠ r := by
      rintro rfl
      have reader := fits.reader
      rw [was] at reader
      cases reader
    rw [Function.update_of_ne other]
    exact ⟨fits, reflects.room i p v part⟩
  · intro v part _
    rwa [World.setLocal_self]
  · rw [World.setLocal_self]
    exact fun _ => rfl
  · rw [World.setLocal_self]


/-- A session whose queue for the stream is empty, and whose stream is open, has no block of it. -/
theorem untraced (reflects : Reflects w stage) {k : Nat} {fin : Bool}
    (empty : (w.sessions i).blocks k = [])
    (open_ : (w.sessions i).base.marks k = some (false, fin)) (r : Ref) :
    ¬ (stage r).Traces i k := by
  intro traces
  generalize was : stage r = now at traces
  cases now with
  | absent | taken | cached => cases traces
  | queued j l complete =>
      rcases traces with ⟨rfl, rfl⟩
      have member := (reflects.held.mem_iff (p := .queue j l) (r := r)).mpr (by rw [was]; rfl)
      rw [World.held, empty] at member
      cases member
  | dropped j left complete =>
      rcases traces with ⟨rfl, rfl⟩
      rcases reflects.dropped j k complete r was with ⟨_, closed⟩
      cases open_.symm.trans closed

/-- The stage of a block in a queue, by its flag. -/
theorem queued_of_mem (reflects : Reflects w stage) {k : Nat} {r : Ref} {c : Chunk}
    (member : r ∈ (w.sessions i).blocks k) (here : w.chunks r = some c) :
    stage r = .queued i k c.complete := by
  rcases (reflects.of_mem_blocks member).1 with ⟨complete, was⟩
  have flags := reflects.blocks r
  rw [was, World.flags, here] at flags
  rcases flags with ⟨size, -, same⟩
  simp only [Option.map_some, Chunk.flags, Option.some.injEq, Prod.mk.injEq] at same
  rw [was, same.1]

/-- A stream with a block that is still filled has not ended. -/
theorem unended (reflects : Reflects w stage) (tidy : (w.sessions i).Tidy) {k : Nat} {r : Ref}
    {c : Chunk} (member : r ∈ (w.sessions i).blocks k) (here : w.chunks r = some c)
    (incomplete : c.complete = false) :
    ∃ closed, (w.sessions i).base.marks k = some (closed, false) := by
  have was := reflects.queued_of_mem member here
  rw [incomplete] at was
  rcases reflects.filling i k r was with ⟨v, part, rfl⟩
  rcases reflects.fits i _ v part with ⟨placed, live⟩ | ⟨left, placed⟩
  · cases was.symm.trans placed
    have at_ := tidy.receiving _ v part
    rw [live] at at_
    exact tidy.based.live v.hd at_
  · cases was.symm.trans placed

/-- `Read` has left its loop; it reports the end only if the queue is empty. -/
theorem finish (reflects : Reflects w stage) (tidy : (w.sessions i).Tidy) {k room : Nat}
    {kept : List Byte} (lock : (w.sessions i).lock = .draining k room kept false)
    (got : List Byte)
    (nothing : got = [] → (w.sessions i).base.marks k = some (false, true) →
      (w.sessions i).blocks k = []) :
    Reflects (w.setLocal i ((w.sessions i).finishRead k got none)) stage := by
  rcases (w.sessions i).finishRead_cases (tidy.known lock) got none with
    ⟨s, ended, same, marks, outcome⟩
  rw [same]
  refine reflects.stay i (fun j => World.setLocal_other _ _ _) (fun _ => rfl) rfl rfl ?_ ?_
    (.same ?_) ?_ <;> rw [World.setLocal_self]
  · exact fun j => Local.blocks_kept (by simp only [Local.stale, lock]) rfl rfl
  · exact marks
  · intro j member
    rcases outcome with rfl | ⟨rfl, empty, -, open_⟩
    · exact .inl member
    · rcases List.mem_append.mp member with before | now
      · exact .inl before
      · cases List.mem_singleton.mp now
        exact .inr ⟨⟨false, (marks k).trans open_⟩,
          reflects.untraced (nothing empty open_) open_⟩

/-- A turn of `Read` up to `putChunk`. -/
theorem drain (reflects : Reflects w stage) (bounded : Bounded w)
    (tidy : (w.sessions i).Tidy) {k room : Nat} {got : List Byte}
    (lock : (w.sessions i).lock = .draining k room got false)
    (taken : w.drain i k room got = some w') :
    ∃ stage', Advance stage w.calls stage' w'.calls ∧ Reflects w' stage' := by
  have fresh : (w.sessions i).stale = none := by simp only [Local.stale, lock]
  rcases World.drain_cases tidy lock taken with ⟨empty, rfl⟩ | ⟨r, rest, c, queue, here, outcome⟩
  · exact stays rfl (reflects.finish tidy lock got fun _ _ => empty)
  have blocks := Local.blocks_row fresh queue
  have member : r ∈ (w.sessions i).blocks k := by
    rw [blocks]
    exact List.mem_cons_self
  rcases outcome with ⟨stops, rfl⟩ | ⟨goesOn, bytes, after, read, rfl, outcome⟩
  · refine stays rfl (reflects.finish tidy lock got fun nothing open_ => ?_)
    have room_ := (tidy.reading k room got false lock).1
    rcases stops with full | ⟨-, incomplete⟩
    · simp [full, nothing] at room_
    · rcases reflects.unended tidy member here incomplete with ⟨closed, unended⟩
      cases open_.symm.trans unended
  have moved : Reflects (w.modify r fun c => { c with start := c.start + bytes.length }) stage :=
    reflects.stay i (fun _ _ => rfl) (w.modify_flags_same r _ fun _ _ => rfl) rfl rfl
      (fun _ => rfl) rfl (.same fun _ => rfl) fun _ => .inl
  rcases outcome with ⟨partly, rfl⟩ | ⟨complete, rfl⟩
  · refine stays rfl (moved.finish tidy lock (got ++ bytes) fun nothing _ => ?_)
    -- Nothing was read although there is room, so the block has no unread byte.
    have unread := Chunk.length_unread (bounded.within r c here)
    have within := (bounded.within r c here).1
    have none_ : bytes.length = 0 := by
      rw [(List.append_eq_nil_iff.mp nothing).2, List.length_nil]
    rw [read, List.length_take] at none_
    rw [not_or] at goesOn
    have start : c.start = c.end := by omega
    rcases partly with differs | incomplete
    · rw [(List.append_eq_nil_iff.mp nothing).2] at differs
      exact (differs start).elim
    · exact (goesOn.2 ⟨start, incomplete⟩).elim
  · have was := reflects.queued_of_mem member here
    rw [complete] at was
    refine moved.putQueued was ?_ fun j other => ?_
    · refine blocks.trans (congrArg _ (Eq.symm ?_))
      exact Local.blocks_stale rfl queue
    · refine (Local.blocks_other (.inr rfl) (Ne.symm other)).trans ?_
      exact (Local.blocks_of_fresh fresh j).symm

/-- The rest of a turn of `Read`: the slot of the returned block is cleared. -/
theorem shift (reflects : Reflects w stage) (tidy : (w.sessions i).Tidy) {k room : Nat}
    {got : List Byte} (lock : (w.sessions i).lock = .draining k room got true) (draw : Nat) :
    Reflects (w.shift i k room got draw) stage := by
  rcases World.shift_cases tidy lock draw with ⟨r, rest, n, s, lock', queue, same, marks, after⟩
  rw [same]
  have stale : (w.sessions i).stale = some (k, (w.sessions i).head k) := by
    simp only [Local.stale, lock]
  refine reflects.stay i (fun j => World.setLocal_other _ _ _) (fun _ => rfl) rfl rfl
    (fun j => ?_) ?_ (.same ?_) ?_ <;> rw [World.setLocal_self]
  · have fresh : Local.stale { w.sessions i with
        base := s
        queue := Function.update (w.sessions i).queue k (row n rest)
        head := Function.update (w.sessions i).head k n
        lock := lock' } = none := by
      rcases after with rfl | rfl <;> rfl
    by_cases own : j = k
    · subst own
      rw [Local.blocks_stale stale queue]
      exact Local.blocks_row fresh (Function.update_self _ _ _)
    · rw [Local.blocks_of_fresh fresh, Local.blocks_other (.inr stale) (Ne.symm own)]
      exact congrArg List.reduceOption (Function.update_of_ne own _ _)
  · exact marks
  · exact fun j => .inl

/-! ## `closeLocked` -/

/-- A block that the reader still fills leaves its queue. -/
theorem dropped_of_queue (reflects : Reflects w stage) (tidy : (w.sessions i).Tidy)
    {k n : Nat} {byReader : Bool} {r : Ref} {rest : List Ref} {c : Chunk}
    (lock : (w.sessions i).lock = .closing k n false byReader)
    (queue : (w.sessions i).queue k = row n (r :: rest)) (here : w.chunks r = some c)
    (incomplete : c.complete = false)
    (reached : w' = (w.modify r fun c => { c with discard := true }).setLocal i
      { (w.sessions i).clear k n with lock := .closing k (n + 1) false byReader }) :
    ∃ stage', Advance stage w.calls stage' w'.calls ∧ Reflects w' stage' := by
  have fresh : (w.sessions i).stale = none := by simp only [Local.stale, lock]
  have blocks := Local.blocks_row fresh queue
  have was := reflects.queued_of_mem (i := i) (k := k) (by rw [blocks]; exact List.mem_cons_self) here
  rw [incomplete] at was
  have mine : (stage r).reader = none ∨ (stage r).reader = some i := .inr (by rw [was]; rfl)
  have flags := reflects.blocks r
  rw [was] at flags
  rcases flags with ⟨size, known, flags⟩
  have discarded : w'.flags r = some (false, true, size) := by
    rw [reached, World.setLocal_flags,
      World.modify_flags_map _ _ _ (fun f => (f.1, true, f.2.2)) fun _ => rfl, flags]
    rfl
  have sessions : ∀ j, j ≠ i → w'.sessions j = w.sessions j := by
    intro j other
    rw [reached, World.setLocal_other _ _ _ other]
    rfl
  have own : w'.sessions i = { (w.sessions i).clear k n with
      lock := .closing k (n + 1) false byReader } := by
    rw [reached, World.setLocal_self]
  have other : ∀ s, s ≠ r → w'.flags s = w.flags s := by
    intro s different
    rw [reached, World.setLocal_flags, World.modify_flags_other _ _ _ different]
  rcases reflects.filling i k r was with ⟨v, part, rfl⟩
  have part' : (w'.sessions i).receive.part = some (.filling, v) := by rw [own]; exact part
  have moved : Stage.Move v.c (stage v.c) (.dropped i (some k) false) [] := was ▸ .drop i k
  have allocated := reflects.allocated (r := v.c) (by simp [was])
  refine advances _ moved (by rw [reached, List.append_nil]; rfl)
    (reflects.move mine sessions other ?_ ⟨size, known, discarded⟩ ?_ ?_ (by simp) ?_ (.same ?_) ?_
      ?_ ?_)
  · refine reflects.held.transfer (p := .queue i k) (by simp) ?_ ?_ fun o notQueue notReader => ?_
    · simp only [World.held, own, blocks, Local.blocks_cleared queue byReader]
      exact .refl _
    · simp only [World.held, Receive.inHand, part, part', World.discard_of_flags flags,
        World.discard_of_flags discarded]
      exact .refl _
    · refine reflects.frame mine sessions other o (fun same => (notReader same).elim) ?_ ?_
      · rintro j rfl
        have different : j ≠ k := fun same => notQueue (by rw [same])
        simp only [World.held, own]
        exact Local.blocks_cleared_other (.inl fresh) different byReader
      · rintro size' rfl
        rw [reached]
        rfl
  · rw [reached]
    exact ⟨le_rfl, allocated⟩
  · intro p v' now
    cases part'.symm.trans now
    refine ⟨.inr ⟨some k, Function.update_self _ _ _⟩, fun _ _ size' flags' => ?_⟩
    cases discarded.symm.trans flags'
    exact reflects.room i _ v part _ _ size flags
  · intro v' now different
    cases part.symm.trans now
    exact (different rfl).elim
  · rw [own]
    exact fun _ => rfl
  · rw [own]
    rfl
  · rintro j l _ ⟨⟩
    refine .inr ⟨rfl, ?_⟩
    rw [own]
    exact tidy.closing k (by rw [lock]; rfl)
  · rintro j l ⟨rfl, same⟩
    cases same
    rw [was]
    exact .inl ⟨rfl, rfl⟩

theorem sweep (reflects : Reflects w stage) (tidy : (w.sessions i).Tidy)
    (taken : w.sweep i = some w') :
    ∃ stage', Advance stage w.calls stage' w'.calls ∧ Reflects w' stage' := by
  rcases World.sweep_cases tidy taken with ⟨k, n, put, byReader, lock, ⟨rfl, queue, rfl⟩ |
    ⟨r, rest, queue, ⟨rfl, rfl⟩ | ⟨rfl, c, here, ⟨complete, rfl⟩ | ⟨incomplete, rfl⟩⟩⟩⟩
  · have fresh : (w.sessions i).stale = none := by simp only [Local.stale, lock]
    refine stays rfl (reflects.stay i (fun j => World.setLocal_other _ _ _) (fun _ => rfl) rfl
      rfl (fun j => ?_) ?_ (.same ?_) ?_) <;> rw [World.setLocal_self]
    · rw [Local.blocks_of_fresh rfl]
      by_cases own : j = k
      · subst own
        rw [Local.blocks_row fresh queue]
        simp
      · rw [Local.blocks_of_fresh fresh]
        exact congrArg List.reduceOption (Function.update_of_ne own _ _)
    · exact fun _ => rfl
    · exact fun j => .inl
  · have stale : (w.sessions i).stale = some (k, n) := by simp only [Local.stale, lock]
    refine stays rfl (reflects.stay i (fun j => World.setLocal_other _ _ _) (fun _ => rfl) rfl
      rfl (fun j => ?_) ?_ (.same ?_) ?_) <;> rw [World.setLocal_self]
    · by_cases own : j = k
      · subst own
        rw [Local.blocks_cleared queue, Local.blocks_stale stale queue]
      · exact Local.blocks_cleared_other (.inr stale) own byReader
    · rfl
    · exact fun _ => rfl
    · exact fun j => .inl
  · have fresh : (w.sessions i).stale = none := by simp only [Local.stale, lock]
    have blocks := Local.blocks_row fresh queue
    have was := reflects.queued_of_mem (i := i) (k := k)
      (by rw [blocks]; exact List.mem_cons_self) here
    rw [complete] at was
    refine reflects.putQueued was ?_ fun j other => ?_
    · refine blocks.trans (congrArg _ (Eq.symm ?_))
      exact Local.blocks_stale rfl queue
    · refine (Local.blocks_other (.inr rfl) (Ne.symm other)).trans ?_
      exact (Local.blocks_of_fresh fresh j).symm
  · exact reflects.dropped_of_queue tidy lock queue here incomplete rfl

/-! ## Everything else -/

theorem read (reflects : Reflects w stage) {k n : Nat} (taken : w.read i k n = some w') :
    ∃ stage', Advance stage w.calls stage' w'.calls ∧ Reflects w' stage' := by
  unfold World.read at taken
  simp only at taken
  split at taken
  · next st free here =>
      split_ifs at taken
      · cases taken
        exact stays rfl reflects
      · cases taken
        refine stays rfl (reflects.stay i (fun j => World.setLocal_other _ _ _) (fun _ => rfl) rfl
          rfl ?_ ?_ (.same ?_) ?_) <;> rw [World.setLocal_self]
        · exact fun j => Local.blocks_kept (Local.stale_of_free free) rfl rfl
        · exact fun _ => rfl
        · exact fun j => .inl
  · cases taken

theorem session (reflects : Reflects w stage) (tidy : (w.sessions i).Tidy) {a : Session.Action}
    (taken : w.session i a = some w') :
    ∃ stage', Advance stage w.calls stage' w'.calls ∧ Reflects w' stage' := by
  unfold World.session at taken
  simp only at taken
  split_ifs at taken with permitted
  rcases Option.map_eq_some_iff.mp taken with ⟨s, stepped, rfl⟩
  have lasts := tidy.lasts permitted stepped
  refine stays rfl (reflects.stay i (fun j => World.setLocal_other _ _ _) (fun _ => rfl) rfl rfl
    (fun j => ?_) ?_ ⟨fun k fin before => ?_, fun k closed before => ?_⟩ ?_) <;>
    rw [World.setLocal_self]
  · rcases (w.sessions i).lockAfter_cases s a with ⟨same, -⟩ | ⟨k, byReader, target, starts, -⟩
    · rw [same]
      rfl
    · rw [starts]
      exact Local.blocks_kept (Local.stale_of_free (Local.permits_closes permitted target)) rfl rfl
  · have marked := lasts.marks k
    rw [before] at marked
    exact marked.of_closed
  · have marked := lasts.marks k
    rw [before] at marked
    exact marked.of_ended
  · exact fun j => .inl

/-- A block that a cache lets go of is in no other place. -/
theorem evict (reflects : Reflects w stage) {size : Nat} {r : Ref}
    (taken : w.evict size r = some w') :
    ∃ stage', Advance stage w.calls stage' w'.calls ∧ Reflects w' stage' := by
  unfold World.evict at taken
  split_ifs at taken with member
  cases taken
  have was : stage r = .cached size :=
    Stage.of_place_cache ((reflects.held.mem_iff (p := .cache size)).mp member)
  have unused : ∀ j p v, (w.sessions j).receive.part = some (p, v) → v.c ≠ r := by
    rintro j p v part rfl
    have reader := (reflects.fits j p v part).reader
    rw [was] at reader
    cases reader
  have other : ∀ s, s ≠ r →
      (Function.update w.chunks r none s).map Chunk.flags = w.flags s :=
    fun s different => congrArg _ (Function.update_of_ne different _ _)
  have elsewhere : ∀ s, s ≠ r → Function.update stage r .absent s = stage s :=
    fun s different => Function.update_of_ne different _ _
  -- A stage that names a stream is the stage of another block.
  have still : ∀ s next, Function.update stage r .absent s = next → next ≠ .absent →
      stage s = next := by
    intro s next now some_
    by_cases own : s = r
    · rw [own, Function.update_self] at now
      exact (some_ now.symm).elim
    · rwa [elsewhere s own] at now
  have moved : Stage.Move r (stage r) .absent [] := was ▸ .evict size
  refine advances .absent moved (List.append_nil _).symm ⟨?_, ?_, ?_, ?_, ?_, ?_, ?_, ?_⟩
  · have places : (fun s => (Function.update stage r .absent s).place) =
        Function.update (fun s => (stage s).place) r none := by
      funext s
      by_cases own : s = r
      · simp [own, Stage.place]
      · simp [own]
    rw [places]
    refine reflects.held.leave (p := .cache size) ?_ fun o notCache => ?_
    · simpa [World.held] using List.perm_cons_erase member
    · cases o with
      | reader j =>
          exact Receive.inHand_congr fun p v part => other v.c (unused j p v part)
      | queue j k => rfl
      | cache size' => exact Function.update_of_ne (fun same => notCache (by rw [same])) _ _
  · intro s
    by_cases own : s = r
    · subst own
      simp [Stage.Describes, World.flags]
    · have before := reflects.blocks s
      rwa [← other s own, ← elsewhere s own] at before
  · intro s past
    by_cases own : s = r
    · rw [own, Function.update_self]
    · rw [elsewhere s own]
      exact reflects.fresh s past
  · intro j p v part
    rw [elsewhere _ (unused j p v part)]
    exact reflects.fits j p v part
  · intro j p v part complete discard size' flags
    exact reflects.room j p v part complete discard size'
      ((other _ (unused j p v part)).symm.trans flags)
  · intro j k s now
    exact reflects.filling j k s (still s _ now (by simp))
  · intro j k complete s now
    exact reflects.dropped j k complete s (still s _ now (by simp))
  · intro j k member
    refine ⟨(reflects.ended j k member).1, fun s traces => ?_⟩
    refine (reflects.ended j k member).2 s ?_
    rwa [still s _ rfl fun absent => ?_]
    rw [absent] at traces
    exact traces

end Reflects

end Veil.Mux.Chunks
