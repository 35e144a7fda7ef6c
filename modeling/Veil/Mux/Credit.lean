import Veil.Mux.Bytes

/-!
# The credit of a stream

A stream's receive window is shared out between the blocks it holds, the
refund it owes and the credit its peer may still use.  What it grants back is
bounded by the DATA frames it has read, and what it sends by the credit it was
granted.
-/

namespace Veil.Mux

open Veil.Lib

/-- The number of DATA frames in a list. -/
def dataCount (frames : List Frame) : Int := frames.countP (·.kind = .data)

/-- The amount granted by the CREDIT frames in a list. -/
def creditSum (frames : List Frame) : Int :=
  (((frames.filter (·.kind = .credit)).map Frame.amount).sum : Nat)

section Counting

variable (first second : List Frame) (f : Frame)

@[simp]
theorem dataCount_nil : dataCount [] = 0 := rfl

@[simp]
theorem creditSum_nil : creditSum [] = 0 := rfl

@[simp]
theorem dataCount_append : dataCount (first ++ second) = dataCount first + dataCount second := by
  simp [dataCount]

@[simp]
theorem creditSum_append : creditSum (first ++ second) = creditSum first + creditSum second := by
  simp [creditSum]

theorem dataCount_cons : dataCount (f :: second) = dataCount [f] + dataCount second :=
  dataCount_append [f] second

theorem creditSum_cons : creditSum (f :: second) = creditSum [f] + creditSum second :=
  creditSum_append [f] second

theorem dataCount_nonneg : 0 ≤ dataCount first := by
  simp [dataCount]

theorem creditSum_nonneg : 0 ≤ creditSum first :=
  Int.natCast_nonneg _

variable {f}

theorem dataCount_data (data : f.kind = .data) : dataCount [f] = 1 := by
  simp [dataCount, data]

theorem dataCount_other (other : f.kind ≠ .data) : dataCount [f] = 0 := by
  simp [dataCount, other]

theorem creditSum_credit (credit : f.kind = .credit) : creditSum [f] = f.amount := by
  simp [creditSum, credit]

theorem creditSum_other (other : f.kind ≠ .credit) : creditSum [f] = 0 := by
  simp [creditSum, other]

end Counting

/-- A DATA header has been counted and its block not yet been queued. -/
def Progress.pre : Progress → Int
  | .checked true => 1
  | _ => 0

/-- The queue holds the block of a frame that has not been read completely. -/
def Progress.held : Progress → Int
  | .receiving _ false => 1
  | .stuck _ false => 1
  | _ => 0

/-- The read loop ended inside a block that the queue held. -/
def Progress.residue : Progress → Int
  | .stuck _ false => 1
  | _ => 0

namespace Track

/-- The receive window is shared out completely. -/
def WindowOk (t : Track) : Prop := ∀ st, t.st = some st → st.closed = false →
  st.recvCredit + st.unread.length + st.refund + t.progress.pre = windowBlocks ∧
    0 ≤ st.recvCredit ∧ 0 ≤ st.refund

theorem windowOk_move {event : Event} {t t' : Track} (move : Move event t t')
    (flags : t.FlagsOk) (placed : t.Placed) (chunks : t.ChunksOk) (held : t.WindowOk) :
    t'.WindowOk := by
  intro after found open_
  cases move with
  | failBare _ _ _ missing | reportBare missing => cases missing.symm.trans found
  | fail _ _ _ here =>
      cases found
      have window := held _ here
      split_ifs at open_ ⊢ <;> exact window open_
  | report _ here =>
      cases found
      have window := held _ here
      split_ifs at open_ ⊢ <;> exact window open_
  | «open» _ _ _ new | openFull _ _ _ new | arrive _ _ _ new =>
      cases found
      simp [(placed.new new).2.2.2.2.2, Stream.fresh, Stream.unread, Progress.pre, windowBlocks]
  | refuse _ _ new => cases (placed.new new).1.symm.trans found
  | pass | sweep | emitControl => exact held after found open_
  | halt outside =>
      have window := held after found open_
      rcases outside with away | ⟨live, at_⟩
      · rwa [away] at window
      · rwa [at_] at window
  | control away | checkedDead away =>
      have window := held after found open_
      rwa [away] at window
  | ignore _ at_ =>
      have window := held after found open_
      rwa [at_] at window
  | dropChunk at_ dead =>
      have window := held after found open_
      rw [at_] at window
      rename_i live
      cases live with
      | false => exact window
      | true =>
          rcases placed.taking (by rw [at_]; rfl) with ⟨st', here', -, unended⟩
          cases found.symm.trans here'
          have listed := listed_of_unended flags placed found open_ unended
          exact (dead ⟨rfl, listed, after, found, open_⟩).elim
  | opened _ _ at_ _ here | fin _ _ at_ _ here | finished _ _ at_ _ here
  | credit _ _ at_ _ here =>
      cases found
      have window := held _ here open_
      rwa [at_] at window
  | failed | reset | close | closeQuiet | closeFull =>
      cases found
      cases open_
  | checked away _ _ here _ _ _ window_ =>
      cases found
      have window := held _ here open_
      rw [away] at window
      simp only [Progress.pre, Stream.unread] at window ⊢
      omega
  | respond _ here | respondFull _ here | respondOver _ here | controlReturn here
  | finReturn here | giveUp here | abandon here | write _ here | writeReturn here
  | closeWrite here | closeWriteLater here | closeWriteFull here | closeWriteOver here
  | finish here | finishFull _ here | emitData _ _ _ here =>
      cases found
      have window := held _ here open_
      exact window
  | publishDropped bs at_ dropped | completeDropped bs at_ dropped | cutDropped bs at_ dropped =>
      have window := held after found open_
      rwa [at_] at window
  | keepChunk at_ _ here _ =>
      cases found
      have window := held _ here open_
      rw [at_] at window
      simp only [Progress.pre, Stream.unread,
        List.drop_append_of_le_length (flags _ here).inside, List.length_append,
        List.length_singleton] at window ⊢
      omega
  | publish bs at_ here | complete bs at_ here | cut bs at_ here =>
      cases found
      have window := held _ here open_
      have blocks := chunks _ here
      rw [at_] at blocks window
      rcases blocks.last with ⟨before, c, front, -⟩
      rw [Stream.unread_publish front]
      rw [front] at window
      simpa [Progress.pre, Stream.publish] using window
  | advance bytes here front copied unfinished =>
      cases found
      have window := held _ here open_
      rw [Stream.unread_advance bytes front]
      rw [front] at window
      simpa [Stream.advance] using window
  | @pop _ st c rest here front complete inside =>
      cases found
      rw [Stream.pop_closed] at open_
      have window := held _ here open_
      rw [Stream.unread_pop _ front]
      rw [front] at window
      rcases st.pop_eq c.rest with ⟨_, _, same⟩
      simp only [same, List.length_cons] at window ⊢
      omega
  | grant _ here | merge _ here =>
      cases found
      have window := held _ here open_
      simp only [Stream.granted, Stream.unread] at window ⊢
      omega

/-! ## Sending within the credit -/

/-- A stream still takes the frames addressed to it. -/
def Attentive (t : Track) (st : Stream) : Prop := t.listed = true ∧ st.err = none

/-- What a stream has sent is within the credit it was granted. -/
structure Spent (t : Track) (st : Stream) : Prop where
  low : 0 ≤ st.sendCredit
  high : st.sendCredit ≤ windowBlocks
  bound : st.sendCredit + dataCount t.out ≤ windowBlocks + creditSum t.inn
  whole : t.Attentive st →
    st.sendCredit + dataCount t.out = windowBlocks + creditSum t.inn

def SendOk (t : Track) : Prop :=
  (t.st = none → dataCount t.out = 0) ∧ ∀ st, t.st = some st → t.Spent st

theorem Spent.keep {t t' : Track} {st st' : Stream} (held : t.Spent st)
    (credit : st'.sendCredit = st.sendCredit) (out : dataCount t'.out = dataCount t.out)
    (inn : creditSum t'.inn = creditSum t.inn)
    (listens : t'.Attentive st' → t.Attentive st) : t'.Spent st' := by
  refine ⟨?_, ?_, ?_, ?_⟩
  · rw [credit]
    exact held.low
  · rw [credit]
    exact held.high
  · rw [credit, out, inn]
    exact held.bound
  · rw [credit, out, inn]
    exact fun attentive => held.whole (listens attentive)

/-- A stream that ignores a control frame had stopped listening. -/
theorem not_attentive {t : Track} {st : Stream} {live : Bool} (placed : t.Placed)
    (here : t.st = some st) (at_ : t.progress = .control live)
    (dead : ¬ (live = true ∧ t.listed = true ∧ ∃ st, t.st = some st ∧ st.closed = false)) :
    ¬ t.Attentive st := by
  intro attentive
  cases live with
  | false => exact placed.missed (by rw [at_]; rfl) st here attentive
  | true => exact dead ⟨rfl, attentive.1, placed.listed attentive.1⟩

theorem sendOk_move {event : Event} {t t' : Track} (move : Move event t t')
    (placed : t.Placed) (sent : t.BytesSent) (held : t.SendOk) : t'.SendOk := by
  rcases held with ⟨bare, held⟩
  refine ⟨?_, ?_⟩
  · intro missing
    cases move with
    | failBare _ _ _ missing | reportBare missing => exact bare missing
    | halt | pass | sweep | refuse | control | ignore | checkedDead | dropChunk
    | publishDropped | completeDropped | cutDropped => exact bare missing
    | @emitControl _ c rest _ queue =>
        have control : c.frame.kind ≠ .data := sent.plain c (by rw [queue]; simp)
        rw [dataCount_append, dataCount_other control]
        have := bare missing
        omega
    | _ => cases missing
  · intro after found
    cases move with
    | failBare _ _ _ missing | reportBare missing => cases missing.symm.trans found
    | fail _ _ _ here =>
        cases found
        have spent := held _ here
        split_ifs
        · refine spent.keep rfl rfl rfl fun attentive => ?_
          exact absurd attentive.2 (by simp [Stream.notifyAll, Stream.stop])
        · exact spent.keep rfl rfl rfl fun attentive => attentive
    | report _ here =>
        cases found
        split_ifs <;> exact (held _ here).keep rfl rfl rfl fun attentive => attentive
    | «open» _ _ _ new | openFull _ _ _ new =>
        cases found
        rcases placed.new new with ⟨-, -, -, out, inn, -⟩
        constructor <;> simp [Stream.fresh, out, inn, windowBlocks]
    | arrive _ _ _ new =>
        cases found
        rcases placed.new new with ⟨-, -, -, out, inn, -⟩
        constructor <;> simp [Stream.fresh, out, inn, windowBlocks, creditSum]
    | refuse _ _ new => cases (placed.new new).1.symm.trans found
    | halt | pass | control | checkedDead | dropChunk | publishDropped | cutDropped =>
        exact (held after found).keep rfl rfl rfl fun attentive => attentive
    | sweep =>
        refine (held after found).keep rfl rfl rfl fun attentive => ?_
        cases attentive.1
    | completeDropped bs =>
        refine (held after found).keep rfl rfl ?_ fun attentive => attentive
        rw [creditSum_append, creditSum_other (by simp), Int.add_zero]
    | ignore f at_ dead =>
        have spent := held after found
        refine ⟨spent.low, spent.high, ?_, fun attentive => ?_⟩
        · have grows := creditSum_nonneg [f]
          have bound := spent.bound
          simp only [creditSum_append]
          omega
        · exact (not_attentive placed found at_ dead attentive).elim
    | opened f kind _ _ here | fin f kind _ _ here | finished f kind _ _ here =>
        cases found
        refine (held _ here).keep rfl rfl ?_ fun attentive => attentive
        rw [creditSum_append, creditSum_other (by simp [kind]), Int.add_zero]
    | failed f kind _ _ _ here | reset f kind _ _ here =>
        cases found
        refine (held _ here).keep rfl rfl ?_ fun attentive => ?_
        · rw [creditSum_append, creditSum_other (by simp [kind]), Int.add_zero]
        · cases attentive.1
    | credit f kind at_ listed here unclosed some_ fits =>
        cases found
        rcases held _ here with ⟨low, high, bound, whole⟩
        refine ⟨?_, ?_, ?_, fun attentive => ?_⟩
        · simp only
          omega
        · simp only
          omega
        · simp only [creditSum_append, creditSum_credit kind]
          omega
        · have before := whole attentive
          simp only [creditSum_append, creditSum_credit kind]
          omega
    | checked _ _ _ here | keepChunk _ _ here | publish _ _ here
    | cut _ _ here | respond _ here | respondFull _ here | respondOver _ here
    | controlReturn here | finReturn here | giveUp here | abandon here | advance _ here
    | grant _ here | merge _ here | closeWrite here | closeWriteLater here
    | closeWriteFull here | closeWriteOver here | finish here | finishFull _ here
    | write _ here | writeReturn here =>
        cases found
        exact (held _ here).keep rfl rfl rfl fun attentive => attentive
    | complete bs at_ here =>
        cases found
        refine (held _ here).keep rfl rfl ?_ fun attentive => attentive
        rw [creditSum_append, creditSum_other (by simp), Int.add_zero]
    | @pop _ st c rest here =>
        cases found
        rcases st.pop_eq c.rest with ⟨_, _, same⟩
        rw [same]
        exact (held _ here).keep rfl rfl rfl fun attentive => attentive
    | close here | closeQuiet here | closeFull here =>
        cases found
        refine (held _ here).keep rfl rfl rfl fun attentive => ?_
        cases attentive.1
    | @emitControl _ c rest _ queue =>
        have control : c.frame.kind ≠ .data := sent.plain c (by rw [queue]; simp)
        refine (held after found).keep rfl ?_ rfl fun attentive => attentive
        rw [dataCount_append, dataCount_other control, Int.add_zero]
    | emitData n _ _ here _ _ _ _ _ window =>
        cases found
        rcases held _ here with ⟨low, high, bound, whole⟩
        refine ⟨?_, ?_, ?_, fun attentive => ?_⟩
        · simp only
          omega
        · simp only
          omega
        · simp only [dataCount_append, dataCount_data]
          omega
        · have before := whole attentive
          simp only [dataCount_append, dataCount_data]
          omega

/-! ## Granting for what was read -/

/-- The credit a stream has granted, in sent and in queued frames. -/
def granted (t : Track) : Int :=
  creditSum t.out + creditSum (t.queue.map Control.frame)

/-- The stream still takes frames, and its session has not dropped its grants. -/
def Generous (t : Track) (st : Stream) : Prop :=
  t.Attentive st ∧ (st.peerDone = false ∨ t.err = none)

/-- What a stream grants, owes and holds comes from the DATA frames read for it. -/
structure Repaid (t : Track) (st : Stream) : Prop where
  bound : st.closed = false →
    t.granted + st.refund + st.unread.length ≤ dataCount t.inn + t.progress.held
  shut : st.closed = true → t.granted ≤ dataCount t.inn + t.progress.residue
  whole : t.Generous st →
    t.granted + st.refund + st.unread.length = dataCount t.inn + t.progress.held

def GrantOk (t : Track) : Prop :=
  (t.st = none → t.granted = 0) ∧ ∀ st, t.st = some st → t.Repaid st

theorem held_le {t : Track} {st : Stream} (chunks : t.ChunksOk) (here : t.st = some st) :
    t.progress.held ≤ t.progress.residue + st.unread.length := by
  have blocks := chunks st here
  cases at_ : t.progress with
  | receiving got discard =>
      cases discard with
      | false =>
          rw [at_] at blocks
          rcases blocks.last with ⟨before, c, front, -⟩
          simp only [Progress.held, Progress.residue, front, List.length_append,
            List.length_singleton]
          omega
      | true => simp [Progress.held, Progress.residue]
  | stuck got discard => cases discard <;> simp [Progress.held, Progress.residue]
  | _ => simp [Progress.held, Progress.residue]

/-- In every state, what was granted comes from complete frames or the last cut one. -/
theorem Repaid.total {t : Track} {st : Stream} (held : t.Repaid st) (chunks : t.ChunksOk)
    (window : t.WindowOk) (here : t.st = some st) :
    t.granted ≤ dataCount t.inn + t.progress.residue := by
  cases closed : st.closed with
  | true => exact held.shut closed
  | false =>
      have bound := held.bound closed
      have owed := (window st here closed).2.2
      have kept := held_le chunks here
      omega

/-- Nothing that concerns the grants has changed. -/
theorem Repaid.keep {t t' : Track} {st st' : Stream} (held : t.Repaid st)
    (granted : t'.granted = t.granted)
    (owed : st'.refund + st'.unread.length = st.refund + st.unread.length)
    (inn : dataCount t'.inn = dataCount t.inn)
    (kept : t'.progress.held = t.progress.held)
    (residue : t'.progress.residue = t.progress.residue)
    (closed : st'.closed = st.closed)
    (gives : t'.Generous st' → t.Generous st) : t'.Repaid st' := by
  refine ⟨?_, ?_, ?_⟩
  · intro open_
    have bound := held.bound (closed ▸ open_)
    omega
  · intro closed_
    have bound := held.shut (closed ▸ closed_)
    omega
  · intro generous
    have whole := held.whole (gives generous)
    omega

/-- Grants were dropped or frames read in vain, and the balance is only a bound. -/
theorem Repaid.slack {t t' : Track} {st st' : Stream} (held : t.Repaid st)
    (granted : t'.granted ≤ t.granted)
    (owed : st'.refund + st'.unread.length = st.refund + st.unread.length)
    (inn : dataCount t.inn ≤ dataCount t'.inn)
    (kept : t.progress.held ≤ t'.progress.held)
    (residue : t.progress.residue ≤ t'.progress.residue)
    (closed : st'.closed = st.closed)
    (mean : ¬ t'.Generous st') : t'.Repaid st' := by
  refine ⟨?_, ?_, fun generous => (mean generous).elim⟩
  · intro open_
    have bound := held.bound (closed ▸ open_)
    omega
  · intro closed_
    have bound := held.shut (closed ▸ closed_)
    omega

/-- The stream was closed. -/
theorem Repaid.closed {t t' : Track} {st : Stream} (held : t.Repaid st)
    (chunks : t.ChunksOk) (window : t.WindowOk) (here : t.st = some st) (e : Err)
    (granted : t'.granted = t.granted) (inn : dataCount t'.inn = dataCount t.inn)
    (residue : t'.progress.residue = t.progress.residue) (unlisted : t'.listed = false) :
    t'.Repaid (st.shut e) := by
  refine ⟨?_, ?_, ?_⟩
  · intro open_
    cases open_
  · intro _
    have total := held.total chunks window here
    omega
  · intro generous
    cases unlisted.symm.trans generous.1.1

theorem granted_append (t : Track) {f : Frame} (done : Waiter) (other : f.kind ≠ .credit) :
    ({ t with queue := t.queue ++ [⟨f, done⟩] } : Track).granted = t.granted := by
  simp only [granted, List.map_append, List.map_singleton, creditSum_append,
    creditSum_other other]
  omega

/-- The amount a refund is encoded as, while it fits the window. -/
theorem amount_refund {refund : Int} (low : 0 ≤ refund) (high : refund ≤ windowBlocks) :
    (fromBigEndian (bigEndian 2 refund.toNat) : Int) = refund := by
  rw [fromBigEndian_bigEndian, Nat.mod_eq_of_lt]
  · omega
  · simp only [windowBlocks] at high
    omega

/-- A CREDIT that takes a further amount within the window grants the sum. -/
theorem creditSum_merged {f : Frame} (credit : f.kind = .credit) {n : Nat}
    (fits : ((f.amount + n : Nat) : Int) ≤ windowBlocks) :
    creditSum [{ f with payload := bigEndian 2 (f.amount + n) }] = creditSum [f] + n := by
  have small : f.amount + n < 256 ^ 2 := by
    simp only [windowBlocks] at fits
    omega
  have sum : fromBigEndian (bigEndian 2 (f.amount + n)) = f.amount + n := by
    rw [fromBigEndian_bigEndian, Nat.mod_eq_of_lt small]
  have both : ∀ p, creditSum [{ f with payload := p }] = (fromBigEndian p : Int) :=
    fun p => creditSum_credit credit
  rw [both, sum, creditSum_credit credit]
  push_cast
  rfl

/-- The refund of an open stream fits its window. -/
theorem refund_le {st : Stream} {progress : Progress}
    (shared : st.recvCredit + st.unread.length + st.refund + progress.pre = windowBlocks ∧
      0 ≤ st.recvCredit ∧ 0 ≤ st.refund) : st.refund ≤ windowBlocks := by
  have counted : 0 ≤ progress.pre := by
    unfold Progress.pre
    split <;> simp
  omega

/-- Publishing bytes keeps the number of unread blocks. -/
theorem unread_publish_length {t : Track} {st : Stream} {got : List Byte}
    (chunks : t.ChunksOk) (here : t.st = some st) (at_ : t.progress = .receiving got false)
    (bs : List Byte) (complete : Bool) :
    (st.publish bs complete).unread.length = st.unread.length := by
  have blocks := chunks _ here
  rw [at_] at blocks
  rcases blocks.last with ⟨before, c, front, -⟩
  rw [Stream.unread_publish front, front]
  simp

theorem residue_discarded (progress : Progress) :
    (discarded progress).residue = progress.residue := by
  cases progress <;> rfl

theorem grantOk_move {event : Event} {t t' : Track} (move : Move event t t')
    (flags : t.FlagsOk) (placed : t.Placed) (chunks : t.ChunksOk) (window : t.WindowOk)
    (held : t.GrantOk) : t'.GrantOk := by
  rcases held with ⟨bare, held⟩
  refine ⟨?_, ?_⟩
  · intro missing
    cases move with
    | failBare _ _ _ missing =>
        have nothing := bare missing
        have queued := creditSum_nonneg (t.queue.map Control.frame)
        have sent := creditSum_nonneg t.out
        simp only [granted, List.map_nil, creditSum_nil] at nothing ⊢
        omega
    | reportBare missing => exact bare missing
    | halt | pass | sweep | control | ignore | checkedDead | dropChunk
    | publishDropped | completeDropped | cutDropped => exact bare missing
    | refuse => exact (granted_append t .nobody (by simp)).trans (bare missing)
    | emitControl alive queue =>
        have nothing := bare missing
        rw [granted, queue, List.map_cons, creditSum_cons] at nothing
        simp only [granted, creditSum_append]
        omega
    | _ => cases missing
  · intro after found
    cases move with
    | failBare _ _ _ missing | reportBare missing => cases missing.symm.trans found
    | fail e alive ended here =>
        cases found
        have dropped : creditSum t.out + creditSum [] ≤ t.granted := by
          have queued := creditSum_nonneg (t.queue.map Control.frame)
          simp only [granted, creditSum_nil]
          omega
        split_ifs with stopped
        · refine (held _ here).slack dropped rfl le_rfl le_rfl le_rfl rfl fun generous => ?_
          exact absurd generous.1.2 (by simp [Stream.notifyAll, Stream.stop])
        · refine (held _ here).slack dropped rfl le_rfl le_rfl le_rfl rfl fun generous => ?_
          rcases generous with ⟨⟨listed, -⟩, unconfirmed | impossible⟩
          · have unconfirmed : _ = false := unconfirmed
            exact stopped ⟨listed, fun confirmed => by cases unconfirmed.symm.trans confirmed⟩
          · cases impossible
    | report _ here =>
        cases found
        split_ifs <;>
          exact (held _ here).keep rfl rfl rfl rfl rfl rfl fun generous => generous
    | «open» _ _ _ new | openFull _ _ _ new =>
        cases found
        rcases placed.new new with ⟨-, -, queue, out, inn, away⟩
        constructor <;> simp [granted, Stream.fresh, Stream.unread, out, inn, queue, away,
          Progress.held, creditSum]
    | arrive _ _ _ new =>
        cases found
        rcases placed.new new with ⟨-, -, queue, out, inn, away⟩
        constructor <;> simp [granted, Stream.fresh, Stream.unread, out, inn, queue, away,
          Progress.held, dataCount]
    | refuse _ _ new => cases (placed.new new).1.symm.trans found
    | halt outside =>
        have same : t.progress.held = 0 ∧ t.progress.residue = 0 := by
          rcases outside with away | ⟨live, at_⟩
          · rw [away]
            exact ⟨rfl, rfl⟩
          · rw [at_]
            exact ⟨rfl, rfl⟩
        exact (held after found).keep rfl rfl rfl same.1.symm same.2.symm rfl
          fun generous => generous
    | pass => exact (held after found).keep rfl rfl rfl rfl rfl rfl fun generous => generous
    | sweep =>
        refine (held after found).keep rfl rfl rfl rfl rfl rfl fun generous => ?_
        cases generous.1.1
    | control away | checkedDead away =>
        exact (held after found).keep rfl rfl rfl (by rw [away]; rfl) (by rw [away]; rfl) rfl
          fun generous => generous
    | dropChunk at_ =>
        exact (held after found).keep rfl rfl rfl (by rw [at_]; rfl) (by rw [at_]; rfl) rfl
          fun generous => generous
    | publishDropped bs at_ dropped =>
        rcases dropped with rfl | missing
        · exact (held after found).keep rfl rfl rfl (by rw [at_]; rfl) (by rw [at_]; rfl) rfl
            fun generous => generous
        · cases missing.symm.trans found
    | cutDropped bs at_ dropped =>
        rcases dropped with rfl | missing
        · exact (held after found).keep rfl rfl rfl (by rw [at_]; rfl) (by rw [at_]; rfl) rfl
            fun generous => generous
        · cases missing.symm.trans found
    | completeDropped bs at_ dropped =>
        rcases dropped with rfl | missing
        · refine (held after found).slack le_rfl rfl ?_ (by rw [at_]; rfl) (by rw [at_]; rfl)
            rfl fun generous => placed.missed (by rw [at_]; rfl) after found generous.1
          rw [dataCount_append, dataCount_data rfl]
          omega
        · cases missing.symm.trans found
    | ignore f at_ dead other =>
        refine (held after found).keep rfl rfl ?_ (by rw [at_]; rfl) (by rw [at_]; rfl) rfl
          fun generous => generous
        rw [dataCount_append, dataCount_other other.2, Int.add_zero]
    | opened f kind at_ _ here | fin f kind at_ _ here | credit f kind at_ _ here =>
        cases found
        refine (held _ here).keep rfl rfl ?_ (by rw [at_]; rfl) (by rw [at_]; rfl) rfl
          fun generous => generous
        rw [dataCount_append, dataCount_other (by simp [kind]), Int.add_zero]
    | finished f kind at_ _ here _ _ first =>
        cases found
        refine (held _ here).keep rfl rfl ?_ (by rw [at_]; rfl) (by rw [at_]; rfl) rfl
          fun generous => ⟨generous.1, .inl first⟩
        rw [dataCount_append, dataCount_other (by simp [kind]), Int.add_zero]
    | failed f kind e at_ _ here | reset f kind at_ _ here =>
        cases found
        refine (held _ here).closed chunks window here _ rfl ?_ (by rw [at_]; rfl) rfl
        rw [dataCount_append, dataCount_other (by simp [kind]), Int.add_zero]
    | checked away _ _ here =>
        cases found
        exact (held _ here).keep rfl rfl rfl (by rw [away]; rfl) (by rw [away]; rfl) rfl
          fun generous => generous
    | keepChunk at_ _ here unclosed =>
        cases found
        rcases held _ here with ⟨bound, shut, whole⟩
        rw [at_] at bound whole
        have longer := @List.drop_append_of_le_length _ _ [(⟨[], 0, false⟩ : Chunk)] _
          (flags _ here).inside
        refine ⟨fun open_ => ?_, fun closed => ?_, fun generous => ?_⟩
        · have bound := bound open_
          simp only [granted, Stream.unread, longer, List.length_append,
            List.length_singleton, Progress.held] at bound ⊢
          omega
        · cases unclosed.symm.trans closed
        · have whole := whole generous
          simp only [granted, Stream.unread, longer, List.length_append,
            List.length_singleton, Progress.held] at whole ⊢
          omega
    | publish bs at_ here =>
        cases found
        refine (held _ here).keep rfl ?_ rfl (by rw [at_]; rfl) (by rw [at_]; rfl) rfl
          fun generous => generous
        rw [unread_publish_length chunks here at_]
        rfl
    | @complete _ st got bs at_ here =>
        cases found
        have owed : (st.publish bs true).refund = st.refund := rfl
        rcases held _ here with ⟨bound, shut, whole⟩
        rw [at_] at bound shut whole
        have same := unread_publish_length chunks here at_ bs true
        refine ⟨fun open_ => ?_, fun closed => ?_, fun generous => ?_⟩
        · have bound := bound open_
          simp only [granted, dataCount_append, dataCount_data, same, owed,
            Progress.held] at bound ⊢
          omega
        · have shut := shut closed
          simp only [granted, dataCount_append, dataCount_data, Progress.residue] at shut ⊢
          omega
        · have whole := whole generous
          simp only [granted, dataCount_append, dataCount_data, same, owed,
            Progress.held] at whole ⊢
          omega
    | @cut _ st got bs at_ here =>
        cases found
        have owed : (st.publish bs true).refund = st.refund := rfl
        rcases held _ here with ⟨bound, shut, whole⟩
        rw [at_] at bound shut whole
        have same := unread_publish_length chunks here at_ bs true
        refine ⟨fun open_ => ?_, fun closed => ?_, fun generous => ?_⟩
        · have bound := bound open_
          simp only [granted, same, owed, Progress.held] at bound ⊢
          omega
        · have shut := shut closed
          simp only [granted, Progress.residue] at shut ⊢
          omega
        · have whole := whole generous
          simp only [granted, same, owed, Progress.held] at whole ⊢
          omega
    | respond code here =>
        cases found
        refine (held _ here).keep (granted_append t _ ?_) rfl rfl rfl rfl rfl
          fun generous => generous
        split_ifs <;> simp
    | respondFull _ here | respondOver _ here
    | controlReturn here | finReturn here | giveUp here | abandon here
    | closeWriteLater here | closeWriteFull here | closeWriteOver here
    | write _ here | writeReturn here =>
        cases found
        exact (held _ here).keep rfl rfl rfl rfl rfl rfl fun generous => generous
    | closeWrite here =>
        cases found
        exact (held _ here).keep (granted_append t _ (by simp)) rfl rfl rfl rfl rfl
          fun generous => generous
    | @finish _ st here =>
        cases found
        refine (held _ here).keep ?_ rfl rfl rfl rfl rfl fun generous => generous
        have plain : creditSum ((t.deferredFin st.pendingFIN).map Control.frame) = 0 := by
          cases st.pendingFIN <;> simp [deferredFin, creditSum_other]
        simp [granted, plain, creditSum_other]
    | finishFull queued here =>
        cases found
        refine (held _ here).keep ?_ rfl rfl rfl rfl rfl fun generous => generous
        cases queued <;> simp [granted, deferredFin, creditSum_other]
    | advance bytes here front =>
        cases found
        refine (held _ here).keep rfl ?_ rfl rfl rfl rfl fun generous => generous
        rw [Stream.unread_advance bytes front, front]
        rfl
    | @pop _ st c rest here front =>
        cases found
        refine (held _ here).keep rfl ?_ rfl rfl rfl (Stream.pop_closed _ _) fun generous => ?_
        · rw [Stream.unread_pop _ front, Stream.pop_refund, front, List.length_cons]
          omega
        · rcases st.pop_eq c.rest with ⟨_, _, same⟩
          rw [same] at generous
          exact generous
    | @grant _ st refundAt here due unfailed unclosed =>
        cases found
        rcases held _ here with ⟨bound, shut, whole⟩
        have shared := window _ here unclosed
        have exact_ : creditSum [⟨.credit, t.id, bigEndian 2 st.refund.toNat⟩] = st.refund :=
          (creditSum_credit rfl).trans (amount_refund shared.2.2 (refund_le shared))
        refine ⟨fun open_ => ?_, fun closed => ?_, fun generous => ?_⟩
        · have bound := bound unclosed
          simp only [granted, List.map_append, List.map_singleton, creditSum_append, exact_,
            Stream.granted, Stream.unread] at bound ⊢
          omega
        · cases unclosed.symm.trans closed
        · have whole := whole generous
          simp only [granted, List.map_append, List.map_singleton, creditSum_append, exact_,
            Stream.granted, Stream.unread] at whole ⊢
          omega
    | @merge _ st before later c refundAt here due unfailed unclosed alive queued kind fits =>
        cases found
        rcases held _ here with ⟨bound, shut, whole⟩
        have shared := window _ here unclosed
        have amount := amount_refund shared.2.2 (refund_le shared)
        have exact_ := creditSum_merged kind fits
        rw [amount] at exact_
        have total : creditSum ((t.queue).map Control.frame) =
            creditSum (before.map Control.frame) + creditSum [c.frame] +
              creditSum (later.map Control.frame) := by
          rw [queued, List.map_append, List.map_cons, creditSum_append, creditSum_cons]
          omega
        refine ⟨fun open_ => ?_, fun closed => ?_, fun generous => ?_⟩
        · have bound := bound unclosed
          rw [granted, total] at bound
          rw [granted, List.map_append, List.map_cons, creditSum_append, creditSum_cons, exact_]
          simp only [Stream.granted, Stream.unread] at bound ⊢
          omega
        · cases unclosed.symm.trans closed
        · have whole := whole generous
          rw [granted, total] at whole
          rw [granted, List.map_append, List.map_cons, creditSum_append, creditSum_cons, exact_]
          simp only [Stream.granted, Stream.unread] at whole ⊢
          omega
    | close here =>
        cases found
        exact (held _ here).closed chunks window here _ (granted_append t _ (by simp)) rfl
          (residue_discarded _) rfl
    | closeQuiet here | closeFull here =>
        cases found
        exact (held _ here).closed chunks window here _ rfl rfl (residue_discarded _) rfl
    | @emitControl _ c rest _ queue =>
        refine (held after found).keep ?_ rfl rfl rfl rfl rfl fun generous => generous
        have first := creditSum_cons (rest.map Control.frame) c.frame
        simp only [granted, queue, List.map_cons, creditSum_append]
        omega
    | emitData n _ _ here =>
        cases found
        refine (held _ here).keep ?_ rfl rfl rfl rfl rfl fun generous => generous
        simp [granted, creditSum_other]

end Track

end Veil.Mux
