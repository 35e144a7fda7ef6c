import Veil.Lib.Row
import Veil.Mux.Lasting

/-!
# The queues of one session

Between two pieces of the code every queue is a row: the slots before its
cursor are nil, and the blocks behind it are those a `Read` has still to return.
The cursor is `head`, or the index of the loop of `closeLocked` while it runs.
While a block has been returned and its slot is not yet clear, the slot at the
cursor still refers to it; such a slot is stale, and no stream counts it.

`Tidy` collects this with what the owners of blocks know of the session: a
stream with a queue is open or being closed, and `receive` runs at the header
that the read loop has checked.
-/

namespace Veil.Mux.Chunks

open Veil.Lib

/-- The parts of `receive` that differ in who owns its block. -/
inductive Part where
  | taken
  | filling
  | giving
  deriving DecidableEq

/-- The block of a call of `receive` and the part it is in. -/
def Receive.part : Receive → Option (Part × Receiving)
  | .away => none
  | .taken v => some (.taken, v)
  | .reading v _ | .arrived v _ _ _ _ => some (.filling, v)
  | .giving v _ _ _ => some (.giving, v)

/-- The block that is being filled, and how many bytes of it may be published. -/
def Receive.filled : Receive → Option (Ref × Nat)
  | .taken v => some (v.c, 0)
  | .reading v got | .arrived v got _ _ _ => some (v.c, got.length)
  | .away | .giving _ _ _ _ => none

/-- The lock is kept by the loop of `closeLocked`, for this stream. -/
def Lock.Closes (k : Nat) : Lock → Prop
  | .closing j _ _ _ => j = k
  | _ => False

namespace Local

/-- The first slot of a queue that has not been read. -/
def cursor (l : Local) (k : Nat) : Nat :=
  match l.lock with
  | .closing j n _ _ => if j = k then n else l.head k
  | _ => l.head k

/-- The slot whose block has been returned and which is cleared next. -/
def stale (l : Local) : Option (Nat × Nat) :=
  match l.lock with
  | .draining k _ _ true => some (k, l.head k)
  | .closing k n true _ => some (k, n)
  | _ => none

/-- The slots of a queue, the stale one taken as clear. -/
def slots (l : Local) (k : Nat) : List (Option Ref) :=
  match l.stale with
  | some (j, n) => if j = k then (l.queue k).set n none else l.queue k
  | none => l.queue k

/-- The blocks in the queue of a stream. -/
def blocks (l : Local) (k : Nat) : List Ref := (l.slots k).reduceOption

section Blocks

variable {l : Local} {k : Nat}

/-- Without a stale slot a stream has all blocks that its slots refer to. -/
theorem blocks_of_fresh (fresh : l.stale = none) (k : Nat) :
    l.blocks k = (l.queue k).reduceOption := by
  simp only [blocks, slots, fresh]

theorem blocks_row {n : Nat} {entries : List Ref} (fresh : l.stale = none)
    (queue : l.queue k = row n entries) : l.blocks k = entries := by
  rw [blocks_of_fresh fresh, queue, reduceOption_row]

/-- A stale slot does not count. -/
theorem blocks_stale {n : Nat} {r : Ref} {entries : List Ref} (stale : l.stale = some (k, n))
    (queue : l.queue k = row n (r :: entries)) : l.blocks k = entries := by
  simp only [blocks, slots, stale, if_true, queue, row_set, reduceOption_row]

/-- The stale slot of one queue says nothing of another. -/
theorem blocks_other {j n : Nat} (stale : l.stale = none ∨ l.stale = some (j, n))
    (other : j ≠ k) : l.blocks k = (l.queue k).reduceOption := by
  rcases stale with none_ | some_
  · exact blocks_of_fresh none_ k
  · simp only [blocks, slots, some_, if_neg other]

theorem stale_of_free (free : l.lock = .free) : l.stale = none := by
  simp only [stale, free]

/-- Without a stale slot before and after, a queue that stays has the same blocks. -/
theorem blocks_kept {l' : Local} (fresh : l.stale = none) (fresh' : l'.stale = none)
    (queue : l'.queue k = l.queue k) : l'.blocks k = l.blocks k := by
  rw [blocks_of_fresh fresh, blocks_of_fresh fresh', queue]

theorem blocks_append (free : l.lock = .free) (k : Nat) (r : Ref) :
    (l.append k r).blocks k = l.blocks k ++ [r] := by
  rw [blocks_of_fresh (stale_of_free free), blocks_of_fresh (l := l.append k r)
    (stale_of_free free)]
  simp [append, List.reduceOption_append, List.reduceOption_singleton]

theorem blocks_append_other (free : l.lock = .free) {j : Nat} (other : j ≠ k) (r : Ref) :
    (l.append k r).blocks j = l.blocks j := by
  rw [blocks_of_fresh (stale_of_free free), blocks_of_fresh (l := l.append k r)
    (stale_of_free free)]
  simp [append, other]

/-- A slot that refers to a block is stale, or the queue has this block. -/
theorem stale_or_mem {n : Nat} {r : Ref} (slot : (l.queue k)[n]? = some (some r)) :
    l.stale = some (k, n) ∨ r ∈ l.blocks k := by
  unfold blocks slots
  rw [List.reduceOption_mem_iff]
  split
  · next j m stale =>
      split_ifs with own
      · subst own
        by_cases here : m = n
        · exact .inl (by rw [stale, here])
        · exact .inr (List.mem_of_getElem? ((List.getElem?_set_ne here).trans slot))
      · exact .inr (List.mem_of_getElem? slot)
  · exact .inr (List.mem_of_getElem? slot)

/-- The loop of `closeLocked` has cleared a slot. -/
theorem blocks_cleared {n : Nat} {r : Ref} {entries : List Ref}
    (queue : l.queue k = row n (r :: entries)) (byReader : Bool) :
    Local.blocks { l.clear k n with lock := .closing k (n + 1) false byReader } k = entries := by
  have cleared : (l.queue k).set n none = row (n + 1) entries := by rw [queue, row_set]
  exact blocks_row rfl ((Function.update_self _ _ _).trans cleared)

theorem blocks_cleared_other {n : Nat} (stale : l.stale = none ∨ l.stale = some (k, n))
    {j : Nat} (other : j ≠ k) (byReader : Bool) :
    Local.blocks { l.clear k n with lock := .closing k (n + 1) false byReader } j =
      l.blocks j := by
  rw [blocks_of_fresh rfl, blocks_other stale (Ne.symm other)]
  exact congrArg List.reduceOption (Function.update_of_ne other _ _)

end Blocks

/-! ## What the small functions leave alone -/

theorem proceed_begins (l : Local) {v : Receiving} (some_ : 0 < v.hd.length) :
    l.proceed v [] none = { l with receive := .reading v [] } :=
  if_pos some_

/-- `receive` goes on with the next read, or it has ended. -/
theorem proceed_cases (l : Local) (v : Receiving) (got : List Byte) (err : Option Err) :
    (err = none ∧ got.length < v.hd.length ∧
        l.proceed v got err = { l with receive := .reading v got }) ∨
      (err ≠ none ∨ v.hd.length ≤ got.length) ∧ ∃ s : Session,
        l.proceed v got err = { l with receive := .away, base := s } ∧
          ∀ k, s.marks k = l.base.marks k := by
  cases err with
  | some e => exact .inr ⟨.inl nofun, _, rfl, fun _ => rfl⟩
  | none =>
      by_cases more : got.length < v.hd.length
      · exact .inl ⟨rfl, more, if_pos more⟩
      · exact .inr ⟨.inr (not_lt.mp more), _, if_neg more, fun _ => rfl⟩

theorem transfer_eq (l : Local) (k n : Nat) : ∃ s : Session,
    l.transfer k n = { l with base := s } ∧ ∀ j, s.marks j = l.base.marks j := by
  unfold transfer
  split
  · next st here => exact ⟨_, rfl, Session.marks_replace here rfl rfl⟩
  · exact ⟨l.base, rfl, fun _ => rfl⟩

/-- What the publication of a read does to the session. -/
theorem published_cases (l : Local) {v : Receiving} {got : List Byte} (err : Option Err)
    (fits : got.length ≤ v.hd.length) (n : Nat) (discard : Bool) :
    ∃ (s : Session) (receive : Receive),
      l.published v got n err discard = { l with base := s, receive := receive } ∧
        (∀ k, s.marks k = l.base.marks k) ∧
        (receive.filled = none ∨ receive.filled = some (v.c, got.length)) ∧
        (¬ v.Done got err ∧ receive.part = some (.filling, v) ∨
          v.Done got err ∧ discard = true ∧ receive.part = some (.giving, v) ∨
          v.Done got err ∧ discard = false ∧ receive.part = none) := by
  have counted : ∃ s : Session,
      (if discard = true then l else l.transfer v.hd.id n) = { l with base := s } ∧
        ∀ j, s.marks j = l.base.marks j := by
    cases discard with
    | true => exact ⟨l.base, rfl, fun _ => rfl⟩
    | false => exact l.transfer_eq v.hd.id n
  rcases counted with ⟨s, same, marks⟩
  unfold published
  rw [same]
  by_cases both : v.Done got err ∧ discard = true
  · exact ⟨s, _, dif_pos both, marks, .inl rfl, .inr (.inl ⟨both.1, both.2, rfl⟩)⟩
  · simp only [dif_neg both]
    rcases proceed_cases { l with base := s } v got err with
      ⟨fine, more, same⟩ | ⟨ended, s', same, marks'⟩
    · refine ⟨s, _, same, marks, .inr rfl, .inl ⟨?_, rfl⟩⟩
      rintro (whole | failed)
      · omega
      · simp [fine] at failed
    · have done : v.Done got err := by
        rcases ended with failed | whole
        · exact .inr (Option.isSome_iff_ne_none.mpr failed)
        · exact .inl (fits.antisymm whole)
      refine ⟨s', .away, same, fun k => (marks' k).trans (marks k), .inl rfl,
        .inr (.inr ⟨done, ?_, rfl⟩)⟩
      simpa [done] using both

/-- `Read` reports the end of a stream only when it is open, its FIN has come and `p` is empty. -/
theorem finishRead_cases (l : Local) {k : Nat} (known : l.base.objs k ≠ none)
    (got : List Byte) (grantErr : Option Err) : ∃ (s : Session) (ended : List Nat),
    l.finishRead k got grantErr = { l with base := s, lock := .free, ended := ended } ∧
      (∀ j, s.marks j = l.base.marks j) ∧
      (ended = l.ended ∨ ended = l.ended ++ [k] ∧ got = [] ∧ grantErr = none ∧
        l.base.marks k = some (false, true)) := by
  unfold finishRead
  split
  · next missing => exact (known missing).elim
  · next st here =>
      refine ⟨_, _, rfl, Session.marks_replace here rfl rfl, ?_⟩
      split_ifs with atEnd
      · rcases atEnd with ⟨nothing, granted, -, open_, fin⟩
        exact .inr ⟨rfl, nothing, granted, by rw [Session.marks_of_some here, open_, fin]⟩
      · exact .inl rfl

/-- A refund changes the session only, and the lock when it ends the `Read`. -/
theorem refund_cases (l : Local) {k : Nat} (known : l.base.objs k ≠ none) (room : Nat)
    (got : List Byte) (draw : Nat) : ∃ (s : Session) (lock : Lock),
    l.refund k room got draw = { l with base := s, lock := lock } ∧
      (∀ j, s.marks j = l.base.marks j) ∧
      (lock = .free ∨ lock = .draining k room got false) := by
  unfold refund
  split
  · next missing => exact (known missing).elim
  next st here =>
  simp only
  have counted := Session.marks_update here { st with refund := st.refund + 1 } rfl
  split_ifs
  · generalize reached : l.base.set k { st with refund := st.refund + 1 } = s at counted ⊢
    have objs := s.controlLocked_objs .credit k (bigEndian 2 (st.refund + 1).toNat) .nobody
    have here' : s.objs k = some { st with refund := st.refund + 1 } := by
      rw [← reached]
      simp [Session.set]
    split
    · next s' e refused =>
        rw [refused] at objs
        simp only at objs
        rcases finishRead_cases { l with base := s', lock := .draining k room got false }
          (k := k) (by simp [objs, here']) got (some e) with
          ⟨s'', ended, same, marks, rfl | ⟨-, -, granted, -⟩⟩
        · refine ⟨s'', .free, same, fun j => ?_, .inl rfl⟩
          exact (marks j).trans ((Session.marks_congr objs j).trans (counted j))
        · cases granted
    · next s' accepted =>
        rw [accepted] at objs
        simp only at objs
        rw [← objs] at here'
        refine ⟨_, _, rfl, fun j => ?_, .inr rfl⟩
        have granted := Session.marks_update here' (Stream.granted { st with
          refund := st.refund + 1 } (s'.shape.credit.choose draw)) rfl j
        refine granted.trans ?_
        exact (Session.marks_congr objs j).trans (counted j)
  · exact ⟨_, _, rfl, counted, .inr rfl⟩

/-- What the owners of blocks rely on in the session. -/
structure Based (s : Session) : Prop where
  sound : s.Sound
  new : ∀ k, s.lastID < k → s.objs k = none
  live : ∀ hd, s.reader.inReceive = some (hd, true) →
    ∃ closed, s.marks hd.id = some (closed, false)

/-- The queues of a session between two pieces. -/
structure Tidy (l : Local) : Prop where
  based : Based l.base
  rows : ∀ k, ∃ entries, l.queue k = row (l.cursor k) entries
  stale : ∀ k n, l.stale = some (k, n) → ∃ r entries, l.queue k = row n (r :: entries)
  unclosed : ∀ k, l.queue k ≠ [] → l.lock.Closes k ∨ ∃ fin, l.base.marks k = some (false, fin)
  closing : ∀ k, l.lock.Closes k → ∃ fin, l.base.marks k = some (true, fin)
  receiving : ∀ p v, l.receive.part = some (p, v) →
    l.base.reader.inReceive = some (v.hd, v.live)
  reading : ∀ k room got put, l.lock = .draining k room got put →
    0 < room + got.length ∧ ∃ marks, l.base.marks k = some marks

/-- A step that leaves to the owners of blocks what they rely on. -/
theorem Based.lasts {shut : Nat → Prop} {s s' : Session} (based : Based s)
    (sound : s'.Sound) (lasts : s.Lasts shut s') : Based s' where
  sound := sound
  new k above := by
    have missing := Session.marks_eq_none.mpr (based.new k (lasts.lastID.trans_lt above))
    have marked := lasts.marks k
    rw [missing] at marked
    rcases marked.of_none with none_ | made
    · exact Session.marks_eq_none.mp none_
    · exact absurd made (not_le.mpr above)
  live hd at_ := by
    rcases lasts.reader with same | ⟨-, fresh⟩
    · rw [same] at at_
      rcases based.live hd at_ with ⟨closed, marks⟩
      have marked := lasts.marks hd.id
      rw [marks] at marked
      exact marked.of_unended (by simp [at_])
    · exact fresh hd at_

/-- A change of streams that keeps their marks, by a call of the session. -/
theorem Based.kept {s s' : Session} (based : Based s) (kept : Session.Kept s s')
    (marks : ∀ k, s'.marks k = s.marks k) : Based s' := by
  have lasts : s.Lasts (fun _ => False) s' :=
    .steady marks kept.lastID.ge (Session.inReceive_of_kept kept)
  exact based.lasts (kept.sound based.sound) lasts

theorem cursor_of_open {l : Local} {k : Nat} (open_ : ¬ l.lock.Closes k) :
    l.cursor k = l.head k := by
  unfold cursor
  split
  · next j n put byReader lock =>
      rw [lock] at open_
      exact if_neg open_
  · rfl

namespace Tidy

variable {l l' : Local} {k : Nat}

/-- What a change of the session, or of `receive`, has to keep. -/
theorem rebase (tidy : l.Tidy) (queue : l'.queue = l.queue) (head : l'.head = l.head)
    (lock : l'.lock = l.lock) (based : Based l'.base)
    (marks : ∀ k, l'.base.marks k = l.base.marks k)
    (receiving : ∀ p v, l'.receive.part = some (p, v) →
      l'.base.reader.inReceive = some (v.hd, v.live)) : l'.Tidy where
  based := based
  rows k := by
    have cursor : l'.cursor k = l.cursor k := by simp only [cursor, lock, head]
    rw [queue, cursor]
    exact tidy.rows k
  stale k n := by
    have stale : l'.stale = l.stale := by simp only [Local.stale, lock, head]
    rw [queue, stale]
    exact tidy.stale k n
  unclosed k := by
    rw [queue, lock, marks]
    exact tidy.unclosed k
  closing k := by
    rw [lock, marks]
    exact tidy.closing k
  receiving := receiving
  reading k room got put := by
    rw [lock, marks]
    exact tidy.reading k room got put

/-- A call of the session that keeps the marks of its streams. -/
theorem called (tidy : l.Tidy) {s' : Session} (kept : l.base.Kept s')
    (marks : ∀ k, s'.marks k = l.base.marks k) : Tidy { l with base := s' } := by
  refine tidy.rebase rfl rfl rfl (tidy.based.kept kept marks) marks fun p v part => ?_
  exact (Session.inReceive_of_kept kept).trans (tidy.receiving p v part)

/-- With the lock free, or kept by a `Read`, the cursor of every queue is its `head`. -/
theorem relock (tidy : l.Tidy) (queue : l'.queue = l.queue) (head : l'.head = l.head)
    (base : l'.base = l.base) (receive : l'.receive = l.receive)
    (before : ∀ k, ¬ l.lock.Closes k) (after : ∀ k, ¬ l'.lock.Closes k)
    (stale : ∀ k n, l'.stale = some (k, n) → ∃ r entries, l.queue k = row n (r :: entries))
    (reading : ∀ k room got put, l'.lock = .draining k room got put →
      0 < room + got.length ∧ ∃ marks, l.base.marks k = some marks) : l'.Tidy where
  based := base ▸ tidy.based
  rows k := by
    rw [queue, cursor_of_open (after k), head, ← cursor_of_open (before k)]
    exact tidy.rows k
  stale k n := by
    rw [queue]
    exact stale k n
  unclosed k := by
    rw [queue, base]
    exact fun some_ => .inr ((tidy.unclosed k some_).resolve_left (before k))
  closing k now := (after k now).elim
  receiving := by
    rw [receive, base]
    exact tidy.receiving
  reading := by
    rw [base]
    exact reading

/-! ### `receive` -/

theorem chunk_of_inReceive {reader : Reader} {hd : Header} {live : Bool}
    (at_ : reader.inReceive = some (hd, live)) : reader = .chunk hd live := by
  cases reader <;> cases at_
  rfl

/-- A DATA frame has a payload, and of one block at most. -/
theorem length_pos (tidy : l.Tidy) {p : Part} {v : Receiving}
    (part : l.receive.part = some (p, v)) : 0 < v.hd.length ∧ v.hd.length ≤ blockSize := by
  have reading := tidy.based.sound.reading
  rw [chunk_of_inReceive (tidy.receiving p v part)] at reading
  rcases reading with ⟨valid, kind⟩
  have fits := valid.2.2
  rw [kind] at fits
  simpa [Kind.lengthOk] using fits

/-- A call of `receive` goes on or ends. -/
theorem proceed (tidy : l.Tidy) {p : Part} {v : Receiving}
    (part : l.receive.part = some (p, v)) (got : List Byte) (err : Option Err) :
    (l.proceed v got err).Tidy := by
  have at_ := chunk_of_inReceive (tidy.receiving p v part)
  have sound := tidy.based.sound
  cases err with
  | some e =>
      refine tidy.rebase rfl rfl rfl ?_ (fun _ => rfl) nofun
      exact ⟨Session.stopReader_sound sound e _, tidy.based.new, nofun⟩
  | none =>
      unfold Local.proceed
      simp only
      split_ifs
      · refine tidy.rebase rfl rfl rfl tidy.based (fun _ => rfl) ?_
        rintro _ _ ⟨⟩
        exact tidy.receiving p v part
      · refine tidy.rebase rfl rfl rfl ⟨?_, tidy.based.new, nofun⟩ (fun _ => rfl) nofun
        exact Session.reader_sound sound (by rw [at_]; rfl) (Nat.zero_le _) rfl rfl
          (fun _ => rfl) rfl rfl

/-- A block is appended to the queue of an open stream. -/
theorem append (tidy : l.Tidy) (free : l.lock = .free) {r : Ref} {fin : Bool}
    (marks : l.base.marks k = some (false, fin)) : (l.append k r).Tidy where
  based := tidy.based
  rows j := by
    rcases tidy.rows j with ⟨entries, queue⟩
    by_cases own : j = k
    · subst own
      refine ⟨entries ++ [r], ?_⟩
      have appended : (l.append j r).queue j = l.queue j ++ [some r] :=
        Function.update_self _ _ _
      rw [appended, queue, row_append]
      rfl
    · exact ⟨entries, (Function.update_of_ne own _ _).trans queue⟩
  stale j n now := by
    simp only [Local.stale, Local.append, free] at now
    cases now
  unclosed j some_ := by
    by_cases own : j = k
    · subst own
      exact .inr ⟨fin, marks⟩
    · exact tidy.unclosed j ((Function.update_of_ne own _ l.queue) ▸ some_)
  closing := tidy.closing
  receiving := tidy.receiving
  reading := tidy.reading

theorem transfer (tidy : l.Tidy) (k n : Nat) : (l.transfer k n).Tidy := by
  unfold Local.transfer
  split
  · next st here =>
      apply tidy.called ((Session.Kept.refl l.base).set k _)
      exact Session.marks_replace here rfl rfl
  · exact tidy

/-- A read is published, and `receive` goes on, ends or returns the block next. -/
theorem published (tidy : l.Tidy) {v : Receiving} (part : l.receive.part = some (.filling, v))
    (got : List Byte) (n : Nat) (err : Option Err) (discard : Bool) :
    (l.published v got n err discard).Tidy := by
  have counted : (if discard = true then l else l.transfer v.hd.id n).Tidy ∧
      (if discard = true then l else l.transfer v.hd.id n).receive = l.receive := by
    split_ifs
    · exact ⟨tidy, rfl⟩
    · rcases l.transfer_eq v.hd.id n with ⟨s, same, -⟩
      exact ⟨tidy.transfer _ _, by rw [same]⟩
  unfold Local.published
  simp only
  generalize (if discard = true then l else l.transfer v.hd.id n) = l' at counted
  have part' := part
  rw [← counted.2] at part'
  split_ifs with both
  · refine counted.1.rebase rfl rfl rfl counted.1.based (fun _ => rfl) ?_
    rintro _ _ ⟨⟩
    exact counted.1.receiving _ v part'
  · exact counted.1.proceed part' got err

/-! ### `Read` -/

/-- The stream of a `Read` exists. -/
theorem known (tidy : l.Tidy) {room : Nat} {got : List Byte} {put : Bool}
    (lock : l.lock = .draining k room got put) : l.base.objs k ≠ none := by
  rcases (tidy.reading k room got put lock).2 with ⟨_, marks⟩
  intro missing
  exact nomatch (Session.marks_eq_none.mpr missing).symm.trans marks

/-- The errors `Read` fails the session with are those of a refused CREDIT. -/
theorem finishRead (tidy : l.Tidy) {room : Nat} {kept got : List Byte}
    (lock : l.lock = .draining k room kept false) {grantErr : Option Err}
    (plain : ∀ cause, grantErr = some cause →
      cause = .full ∨ cause = .protocol ∨ l.base.err = some cause) :
    (l.finishRead k got grantErr).Tidy := by
  unfold Local.finishRead
  split
  · exact tidy
  · next st here =>
      have free : Tidy { l with lock := .free } := by
        refine tidy.relock rfl rfl rfl rfl ?_ (fun _ => id) nofun nofun
        simp [lock, Lock.Closes]
      have delivered := free.called
        (((Session.Kept.refl l.base).set k { st with delivered := st.delivered ++ got }).willFail
          plain) (Session.marks_replace here rfl rfl)
      exact delivered.rebase rfl rfl rfl delivered.based (fun _ => rfl) delivered.receiving

/-- The refund of a block, once its slot is clear. -/
theorem refund {room : Nat} {got : List Byte}
    (tidy : Tidy { l with lock := .draining k room got false }) (draw : Nat) :
    (l.refund k room got draw).Tidy := by
  rcases (tidy.reading k room got false rfl).2 with ⟨_, known⟩
  unfold Local.refund
  split
  · next missing =>
      rw [Session.marks_eq_none.mpr missing] at known
      cases known
  next st here =>
  simp only
  have counted := tidy.called
    ((Session.Kept.refl l.base).set k { st with refund := st.refund + 1 })
    (Session.marks_replace here rfl rfl)
  split_ifs
  · generalize reached : l.base.set k { st with refund := st.refund + 1 } = s at counted ⊢
    have granted := (Session.Kept.refl s).controlLocked (t := .credit) (by simp) k
      (bigEndian 2 (st.refund + 1).toNat) .nobody
    have objs := s.controlLocked_objs .credit k (bigEndian 2 (st.refund + 1).toNat) .nobody
    have queued := counted.called granted.1 (Session.marks_congr objs)
    split
    · next s' e refused =>
        rw [refused] at granted queued
        refine queued.finishRead rfl fun cause found => ?_
        exact (granted.2 cause found).imp_right (·.imp_right fun failed => granted.1.err ▸ failed)
    · next s' accepted =>
        rw [accepted] at queued objs
        have here' : s'.objs k = some { st with refund := st.refund + 1 } := by
          rw [objs, ← reached]
          simp [Session.set]
        exact queued.called ((Session.Kept.refl s').set k _)
          (Session.marks_replace here' rfl rfl)
  · exact counted

/-- One queue is replaced, and afterwards no loop of `closeLocked` runs. -/
theorem requeue (tidy : l.Tidy) {n : Nat} {entries : List Ref} {lock : Lock}
    (elsewhere : ∀ j, j ≠ k → ¬ l.lock.Closes j) (after : ∀ j, ¬ lock.Closes j)
    (fresh : ∀ k room got put, lock = .draining k room got put → put = false ∧
      0 < room + got.length ∧ ∃ marks, l.base.marks k = some marks)
    (unclosed : row n entries ≠ [] → ∃ fin, l.base.marks k = some (false, fin)) :
    Tidy { l with
      queue := Function.update l.queue k (row n entries)
      head := Function.update l.head k n
      lock := lock } where
  based := tidy.based
  rows j := by
    have cursor := cursor_of_open (l := { l with
      queue := Function.update l.queue k (row n entries)
      head := Function.update l.head k n
      lock := lock }) (after j)
    rw [cursor]
    by_cases own : j = k
    · subst own
      exact ⟨entries, by simp⟩
    · simp only [Function.update_of_ne own]
      rw [← cursor_of_open (elsewhere j own)]
      exact tidy.rows j
  stale j m now := by
    cases lock with
    | free => cases now
    | draining k room got put =>
        rcases fresh k room got put rfl with ⟨rfl, -⟩
        cases now
    | closing k n put byReader => exact (after k rfl).elim
  unclosed j some_ := by
    refine .inr ?_
    by_cases own : j = k
    · subst own
      exact unclosed (by simpa using some_)
    · exact (tidy.unclosed j ((Function.update_of_ne own _ l.queue) ▸ some_)).resolve_left
        (elsewhere j own)
  closing j now := (after j now).elim
  receiving := tidy.receiving
  reading j room got put now := (fresh j room got put now).2

end Tidy

/-- What `Read` and `closeLocked` leave of a queue whose first block is gone. -/
theorem shifted {l : Local} {k : Nat} {r : Ref} {entries : List Ref}
    (queue : l.queue k = row (l.head k) (r :: entries)) :
    ∃ n, Local.compact { l.clear k (l.head k) with
        head := Function.update l.head k (l.head k + 1) } k =
      { l with
        queue := Function.update l.queue k (row n entries)
        head := Function.update l.head k n } := by
  have cleared : (l.queue k).set (l.head k) none = row (l.head k + 1) entries := by
    rw [queue, row_set]
  unfold Local.compact
  simp only [clear, Function.update_self, Function.update_idem, cleared, length_row]
  split_ifs with last far
  · have nothing : entries = [] := List.eq_nil_of_length_eq_zero (by omega)
    exact ⟨0, by rw [nothing, row_zero_nil]⟩
  · exact ⟨0, by rw [row_drop]⟩
  · exact ⟨l.head k + 1, rfl⟩

namespace Tidy

variable {l : Local} {k : Nat}

/-- `Read` has returned a block: its slot is cleared and the block is refunded. -/
theorem shift (tidy : l.Tidy) {room : Nat} {got : List Byte}
    (lock : l.lock = .draining k room got true) (draw : Nat) :
    ((Local.compact { l.clear k (l.head k) with
      head := Function.update l.head k (l.head k + 1) } k).refund k room got draw).Tidy := by
  rcases tidy.stale k (l.head k) (by simp only [Local.stale, lock]) with ⟨r, entries, queue⟩
  rcases shifted queue with ⟨n, same⟩
  rw [same]
  have known := tidy.reading k room got true lock
  apply refund
  apply tidy.requeue
  · simp [lock, Lock.Closes]
  · simp [Lock.Closes]
  · rintro _ _ _ _ ⟨⟩
    exact ⟨rfl, known⟩
  · intro _
    have open_ := tidy.unclosed k (by simp [queue, row])
    exact open_.resolve_left (by simp [lock, Lock.Closes])

/-! ### `closeLocked` -/

/-- The loop has returned the block at its index. -/
theorem swept (tidy : l.Tidy) {n : Nat} {put byReader : Bool} {r : Ref} {entries : List Ref}
    (lock : l.lock = .closing k n put byReader) (queue : l.queue k = row n (r :: entries)) :
    Tidy { l with lock := .closing k n true byReader } where
  based := tidy.based
  rows j := by
    have same : cursor { l with lock := .closing k n true byReader } j = l.cursor j := by
      simp only [cursor, lock]
    rw [same]
    exact tidy.rows j
  stale j m now := by
    cases now
    exact ⟨r, entries, queue⟩
  unclosed j some_ := by
    have before := tidy.unclosed j some_
    rwa [lock] at before
  closing j now := tidy.closing j (by rwa [lock])
  receiving := tidy.receiving
  reading := nofun

/-- The loop goes on to the next index. -/
theorem onward (tidy : l.Tidy) {n : Nat} {put byReader : Bool} {r : Ref} {entries : List Ref}
    (lock : l.lock = .closing k n put byReader) (queue : l.queue k = row n (r :: entries)) :
    Tidy { l.clear k n with lock := .closing k (n + 1) false byReader } where
  based := tidy.based
  rows j := by
    by_cases own : j = k
    · subst own
      exact ⟨entries, by simp [clear, cursor, queue]⟩
    · have before := tidy.rows j
      simp only [cursor, lock, Ne.symm own] at before
      simpa [clear, cursor, own, Ne.symm own] using before
  stale := nofun
  unclosed j some_ := by
    by_cases own : j = k
    · exact .inl own.symm
    · have before := tidy.unclosed j ((Function.update_of_ne own _ l.queue) ▸ some_)
      rwa [lock] at before
  closing j now := tidy.closing j (by rwa [lock])
  receiving := tidy.receiving
  reading := nofun

/-- The loop has ended. -/
theorem emptied (tidy : l.Tidy) {n : Nat} {put byReader : Bool}
    (lock : l.lock = .closing k n put byReader) :
    Tidy { l with
      queue := Function.update l.queue k []
      head := Function.update l.head k 0
      lock := .free } := by
  show Tidy { l with
    queue := Function.update l.queue k (row 0 [])
    head := Function.update l.head k 0
    lock := .free }
  refine tidy.requeue ?_ (fun _ => id) nofun (fun some_ => ?_)
  · intro j other
    rw [lock]
    exact Ne.symm other
  · exact (some_ rfl).elim

end Tidy

/-! ### The other steps of the session -/

/-- The loop of `closeLocked` starts exactly if the step has closed a stream. -/
theorem lockAfter_cases (l : Local) (s : Session) (a : Session.Action) :
    (l.lockAfter s a = l.lock ∧ ∀ k byReader, closes l.base a = some (k, byReader) →
      ¬ ((∃ fin, l.base.marks k = some (false, fin)) ∧ ∃ fin, s.marks k = some (true, fin))) ∨
    ∃ k byReader, closes l.base a = some (k, byReader) ∧
      l.lockAfter s a = .closing k (l.head k) false byReader ∧
      ∃ fin, s.marks k = some (true, fin) := by
  unfold lockAfter
  split
  · next none_ => exact .inl ⟨rfl, fun k byReader some_ => nomatch none_.symm.trans some_⟩
  next k byReader target =>
  split_ifs with both
  · simp only [Bool.and_eq_true, Option.any_eq_true] at both
    rcases both.2 with ⟨st, here, closed⟩
    exact .inr ⟨k, byReader, target, rfl, st.remoteFIN, by
      rw [Session.marks_of_some here, closed]⟩
  · refine .inl ⟨rfl, fun j other same => ?_⟩
    cases target.symm.trans same
    rintro ⟨⟨fin, before⟩, ⟨fin', after⟩⟩
    simp only [Session.marks, Option.map_eq_some_iff, Stream.marks, Prod.mk.injEq] at before after
    rcases before with ⟨st, here, open_, -⟩
    rcases after with ⟨st', here', closed, -⟩
    exact both (by simp [here, here', open_, closed])

theorem permits_other {lock : Lock} {a : Session.Action} (permitted : lock.permits a = true) :
    (∀ k n draw, a ≠ .read k n draw) ∧ a ≠ .takeChunk := by
  constructor
  · rintro k n draw rfl
    cases lock <;> cases permitted
  · rintro rfl
    cases lock <;> cases permitted

/-- A step that closes a stream takes the lock. -/
theorem permits_closes {lock : Lock} {s : Session} {a : Session.Action} {k : Nat}
    {byReader : Bool} (permitted : lock.permits a = true)
    (target : closes s a = some (k, byReader)) : lock = .free := by
  cases lock with
  | free => rfl
  | draining | closing =>
      cases a with
      | close | dispatch => cases permitted
      | _ => cases target

namespace Tidy

variable {l : Local}

/-- What a step of the session leaves to the owners of blocks. -/
theorem lasts (tidy : l.Tidy) {s : Session} {a : Session.Action}
    (permitted : l.lock.permits a = true) (taken : l.base.step a = some s) :
    l.base.Lasts (fun k => ∃ byReader, closes l.base a = some (k, byReader)) s :=
  Session.step_lasts tidy.based.sound tidy.based.new (permits_other permitted)
    (fun _ byReader target => ⟨byReader, target⟩) taken

theorem session (tidy : l.Tidy) {s : Session} {a : Session.Action}
    (permitted : l.lock.permits a = true) (taken : l.base.step a = some s) :
    Tidy { l with base := s, lock := l.lockAfter s a } := by
  have lasts := tidy.lasts permitted taken
  have based := tidy.based.lasts (Session.step_sound tidy.based.sound taken) lasts
  have receiving : ∀ p v, l.receive.part = some (p, v) →
      s.reader.inReceive = some (v.hd, v.live) := by
    intro p v part
    have at_ := tidy.receiving p v part
    rcases lasts.reader with same | ⟨outside, -⟩
    · exact same.trans at_
    · exact nomatch at_.symm.trans outside
  have closed : ∀ k, l.lock.Closes k → ∃ fin, s.marks k = some (true, fin) := by
    intro k now
    rcases tidy.closing k now with ⟨fin, marks⟩
    have marked := lasts.marks k
    rw [marks] at marked
    exact marked.of_closed
  have unclosed : ∀ k, l.queue k ≠ [] → l.lock.Closes k ∨
      (∃ byReader, closes l.base a = some (k, byReader)) ∧
        (∃ fin, l.base.marks k = some (false, fin)) ∧ (∃ fin, s.marks k = some (true, fin)) ∨
      ∃ fin, s.marks k = some (false, fin) := by
    intro k some_
    refine (tidy.unclosed k some_).imp_right fun ⟨fin, marks⟩ => ?_
    have marked := lasts.marks k
    rw [marks] at marked
    exact marked.of_unclosed.imp_left fun ⟨now, after⟩ => ⟨now, ⟨fin, marks⟩, after⟩
  rcases l.lockAfter_cases s a with ⟨same, still⟩ | ⟨k, byReader, target, starts, fin, marks⟩
  · rw [same]
    refine ⟨based, tidy.rows, tidy.stale, fun k some_ => ?_, closed, receiving, ?_⟩
    · rcases unclosed k some_ with now | ⟨⟨byReader, target⟩, both⟩ | open_
      · exact .inl now
      · exact (still k byReader target both).elim
      · exact .inr open_
    · intro k room got put lock
      rcases tidy.reading k room got put lock with ⟨left, marks, known⟩
      have marked := lasts.marks k
      rw [known] at marked
      exact ⟨left, marked.of_some⟩
  · have free := permits_closes permitted target
    rw [starts]
    refine ⟨based, fun j => ?_, nofun, fun j some_ => ?_, ?_, receiving, nofun⟩
    · have cursor : Local.cursor { l with
          base := s, lock := .closing k (l.head k) false byReader } j = l.cursor j := by
        simp only [Local.cursor, free]
        split_ifs with own
        · rw [own]
        · rfl
      rw [cursor]
      exact tidy.rows j
    · rcases unclosed j some_ with now | ⟨⟨byReader', target'⟩, -⟩ | open_
      · rw [free] at now
        exact now.elim
      · cases target.symm.trans target'
        exact .inl rfl
      · exact .inr open_
    · rintro j rfl
      exact ⟨fin, marks⟩

end Tidy

end Local

/-! ## The pieces of the two loops -/

namespace World

variable {ι : Type*} [DecidableEq ι] {w w' : World ι} {i : ι}

/-- Everything a turn of `Read` up to `putChunk` can do. -/
theorem drain_cases {k room : Nat} {got : List Byte} (tidy : (w.sessions i).Tidy)
    (lock : (w.sessions i).lock = .draining k room got false)
    (taken : w.drain i k room got = some w') :
    ((w.sessions i).blocks k = [] ∧
        w' = w.setLocal i ((w.sessions i).finishRead k got none)) ∨
      ∃ r rest c, (w.sessions i).queue k = row ((w.sessions i).head k) (r :: rest) ∧
        w.chunks r = some c ∧
        ((room = 0 ∨ c.start = c.end ∧ c.complete = false) ∧
            w' = w.setLocal i ((w.sessions i).finishRead k got none) ∨
          ¬ (room = 0 ∨ c.start = c.end ∧ c.complete = false) ∧
            ∃ bytes after, bytes = c.unread.take room ∧
              after = w.modify r (fun c => { c with start := c.start + bytes.length }) ∧
              ((c.start + bytes.length ≠ c.end ∨ c.complete = false) ∧
                  w' = after.setLocal i ((w.sessions i).finishRead k (got ++ bytes) none) ∨
                c.complete = true ∧
                  w' = (after.putChunk r).setLocal i { w.sessions i with
                    lock := .draining k (room - bytes.length) (got ++ bytes) true })) := by
  have fresh : (w.sessions i).stale = none := by simp only [Local.stale, lock]
  have cursor : (w.sessions i).cursor k = (w.sessions i).head k := by
    simp only [Local.cursor, lock]
  rcases tidy.rows k with ⟨entries, queue⟩
  rw [cursor] at queue
  unfold World.drain at taken
  simp only [queue] at taken
  cases entries with
  | nil =>
      rw [row_getElem?_nil] at taken
      cases taken
      exact .inl ⟨Local.blocks_row fresh queue, rfl⟩
  | cons r rest =>
      rw [row_getElem?_cons] at taken
      simp only at taken
      split at taken
      · cases taken
      · next c here =>
          refine .inr ⟨r, rest, c, queue, here, ?_⟩
          split_ifs at taken with stops partly
          · cases taken
            exact .inl ⟨stops, rfl⟩
          · cases taken
            exact .inr ⟨stops, _, _, rfl, rfl, .inl ⟨partly, rfl⟩⟩
          · cases taken
            exact .inr ⟨stops, _, _, rfl, rfl, .inr ⟨by simpa using (not_or.mp partly).2, rfl⟩⟩

/-- Everything the rest of a turn of `Read` can do. -/
theorem shift_cases {k room : Nat} {got : List Byte} (tidy : (w.sessions i).Tidy)
    (lock : (w.sessions i).lock = .draining k room got true) (draw : Nat) :
    ∃ r rest n s lock', (w.sessions i).queue k = row ((w.sessions i).head k) (r :: rest) ∧
      w.shift i k room got draw = w.setLocal i { w.sessions i with
        base := s
        queue := Function.update (w.sessions i).queue k (row n rest)
        head := Function.update (w.sessions i).head k n
        lock := lock' } ∧
      (∀ j, s.marks j = (w.sessions i).base.marks j) ∧
      (lock' = .free ∨ lock' = .draining k room got false) := by
  rcases tidy.stale k _ (by simp only [Local.stale, lock]; rfl) with ⟨r, rest, queue⟩
  rcases Local.shifted queue with ⟨n, same⟩
  rcases Local.refund_cases { w.sessions i with
    queue := Function.update (w.sessions i).queue k (row n rest)
    head := Function.update (w.sessions i).head k n } (tidy.known lock) room got draw with
    ⟨s, lock', refunded, marks, outcome⟩
  refine ⟨r, rest, n, s, lock', queue, congrArg (w.setLocal i) ?_, marks, outcome⟩
  exact (congrArg (Local.refund · k room got draw) same).trans refunded

/-- Everything a piece of the loop of `closeLocked` can do. -/
theorem sweep_cases (tidy : (w.sessions i).Tidy) (taken : w.sweep i = some w') :
    ∃ k n put byReader, (w.sessions i).lock = .closing k n put byReader ∧
      (put = false ∧ (w.sessions i).queue k = row n [] ∧
          w' = w.setLocal i { w.sessions i with
            queue := Function.update (w.sessions i).queue k []
            head := Function.update (w.sessions i).head k 0
            lock := .free } ∨
        ∃ r rest, (w.sessions i).queue k = row n (r :: rest) ∧
          (put = true ∧ w' = w.setLocal i { (w.sessions i).clear k n with
              lock := .closing k (n + 1) false byReader } ∨
            put = false ∧ ∃ c, w.chunks r = some c ∧
              (c.complete = true ∧ w' = (w.putChunk r).setLocal i { w.sessions i with
                  lock := .closing k n true byReader } ∨
                c.complete = false ∧ w' = (w.modify r fun c => { c with discard := true }).setLocal
                  i { (w.sessions i).clear k n with
                    lock := .closing k (n + 1) false byReader }))) := by
  unfold World.sweep at taken
  simp only at taken
  split at taken
  · next k n byReader lock =>
      cases taken
      rcases tidy.stale k n (by simp only [Local.stale, lock]) with ⟨r, rest, queue⟩
      exact ⟨k, n, true, byReader, lock, .inr ⟨r, rest, queue, .inl ⟨rfl, rfl⟩⟩⟩
  · next k n byReader lock =>
      refine ⟨k, n, false, byReader, lock, ?_⟩
      rcases tidy.rows k with ⟨entries, queue⟩
      simp only [Local.cursor, lock, if_true] at queue
      cases entries with
      | nil =>
          simp only [queue, row_getElem?_nil] at taken
          cases taken
          exact .inl ⟨rfl, queue, rfl⟩
      | cons r rest =>
          refine .inr ⟨r, rest, queue, .inr ⟨rfl, ?_⟩⟩
          simp only [queue, row_getElem?_cons] at taken
          split at taken
          · cases taken
          · next c here =>
              refine ⟨c, here, ?_⟩
              split_ifs at taken with complete <;> cases taken
              · exact .inl ⟨complete, rfl⟩
              · exact .inr ⟨by simpa using complete, rfl⟩
  · cases taken

end World

end Veil.Mux.Chunks
