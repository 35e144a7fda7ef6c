import Mathlib.Algebra.Order.BigOperators.Group.List
import Mathlib.Algebra.GroupWithZero.Nat
import Mathlib.Algebra.Order.Group.Nat

/-!
# The padding counters of a TLS connection

`patches/padding.go.in`.  One call installs a size limit, a number of records
and a number of bytes; every application record that is encrypted afterwards
takes from the counters.  The counters are a byte and two 16-bit words, so that
each conversion and each subtraction is a place where a value could wrap.  The
number behind `rand.IntN` is an arbitrary number reduced to the size of the
range.
-/

namespace Veil.Tls

def maxPlaintext : Nat := 16384

def versionTLS13 : UInt16 := 0x0304

/-- The padding fields of `halfConn`. -/
structure HalfConn where
  veilPadRecords : UInt8
  veilPadBytes : UInt16
  veilPadLimit : UInt16
  deriving DecidableEq, Repr

/-- What `VeilSetPaddingBudget` reads and writes of a connection. -/
structure Conn where
  vers : UInt16
  isHandshakeComplete : Bool
  out : HalfConn
  deriving DecidableEq, Repr

/-- Install one sender's limit, record count and budget. -/
def Conn.veilSetPaddingBudget (c : Conn) (limit records budget : Int) :
    Except String Conn :=
  if limit < 0 ∨ limit > 512 ∨ records < 0 ∨ records > 12 ∨ budget < 0 ∨ budget > 4096 then
    .error "TLS padding budget outside allowed range"
  else
    let out := { c.out with veilPadRecords := 0, veilPadBytes := 0 }
    if c.vers = versionTLS13 ∧ c.isHandshakeComplete = true then
      .ok { c with out := {
        veilPadLimit := UInt16.ofInt limit
        veilPadRecords := UInt8.ofInt records
        veilPadBytes := UInt16.ofInt budget } }
    else .ok { c with out := out }

namespace HalfConn

/-- The largest padding a record with `n` bytes of plaintext may get, not yet positive. -/
def room (hc : HalfConn) (n : Nat) : Int :=
  let limit : Int := maxPlaintext - n
  let limit := if limit > hc.veilPadLimit.toNat then (hc.veilPadLimit.toNat : Int) else limit
  if limit > hc.veilPadBytes.toNat then (hc.veilPadBytes.toNat : Int) else limit

/-- The padding of one record with `n` bytes of plaintext, and the counters after it. -/
def veilRecordPadding (hc : HalfConn) (n draw : Nat) : Nat × HalfConn :=
  if hc.veilPadRecords = 0 then (0, hc)
  else
    let hc := { hc with veilPadRecords := hc.veilPadRecords - 1 }
    let limit := hc.room n
    if limit ≤ 0 then (0, hc)
    else
      let extra := 1 + draw % limit.toNat
      let hc := { hc with veilPadBytes := hc.veilPadBytes - UInt16.ofNat extra }
      if hc.veilPadBytes = 0 then (extra, { hc with veilPadRecords := 0 })
      else (extra, hc)

/-- A record to be encrypted: its plaintext length and the number drawn for it. -/
structure Drawn where
  length : Nat
  draw : Nat

/-- The padding of records encrypted one after another, and the counters after them. -/
def padAll (hc : HalfConn) : List Drawn → List Nat × HalfConn
  | [] => ([], hc)
  | r :: rest =>
      let (extra, hc) := hc.veilRecordPadding r.length r.draw
      let (extras, hc) := hc.padAll rest
      (extra :: extras, hc)

theorem padAll_cons (hc : HalfConn) (r : Drawn) (rest : List Drawn) :
    (hc.padAll (r :: rest)).1 = (hc.veilRecordPadding r.length r.draw).1 ::
      ((hc.veilRecordPadding r.length r.draw).2.padAll rest).1 :=
  rfl

/-! ## One record -/

/-- No conversion and no subtraction of one call wraps. -/
structure Exact (hc : HalfConn) (n draw : Nat) : Prop where
  records : hc.veilPadRecords ≠ 0 →
    (hc.veilPadRecords - 1).toNat + 1 = hc.veilPadRecords.toNat
  converted : (UInt16.ofNat (hc.veilRecordPadding n draw).1).toNat =
    (hc.veilRecordPadding n draw).1
  bytes : (hc.veilPadBytes - UInt16.ofNat (hc.veilRecordPadding n draw).1).toNat +
    (hc.veilRecordPadding n draw).1 = hc.veilPadBytes.toNat

theorem room_le (hc : HalfConn) (n : Nat) :
    hc.room n ≤ maxPlaintext - n ∧ hc.room n ≤ hc.veilPadLimit.toNat ∧
      hc.room n ≤ hc.veilPadBytes.toNat := by
  simp only [room]
  split_ifs <;> omega

theorem toNat_sub_one {x : UInt8} (some_ : x ≠ 0) : (x - 1).toNat + 1 = x.toNat := by
  have positive : 1 ≤ x := by
    rw [UInt8.le_iff_toNat_le]
    have different : x.toNat ≠ 0 := fun zero => some_ (UInt8.toNat_inj.mp zero)
    exact Nat.one_le_iff_ne_zero.mpr different
  rw [UInt8.toNat_sub_of_le _ _ positive]
  have := UInt8.le_iff_toNat_le.mp positive
  simp only [UInt8.toNat_one] at this ⊢
  omega

theorem toNat_sub_ofNat {x : UInt16} {extra : Nat} (covered : extra ≤ x.toNat) :
    (UInt16.ofNat extra).toNat = extra ∧
      (x - UInt16.ofNat extra).toNat + extra = x.toNat := by
  have converted : (UInt16.ofNat extra).toNat = extra := by
    apply UInt16.toNat_ofNat_of_lt'
    exact Nat.lt_of_le_of_lt covered x.toNat_lt
  refine ⟨converted, ?_⟩
  have below : UInt16.ofNat extra ≤ x := by
    rw [UInt16.le_iff_toNat_le, converted]
    exact covered
  rw [UInt16.toNat_sub_of_le _ _ below, converted]
  omega

/-- What one record can take from the counters. -/
structure Takes (hc : HalfConn) (n extra : Nat) (hc' : HalfConn) : Prop where
  limit : hc'.veilPadLimit = hc.veilPadLimit
  size : extra ≤ hc.veilPadLimit.toNat
  fits : n + extra ≤ maxPlaintext
  bytes : hc'.veilPadBytes.toNat + extra = hc.veilPadBytes.toNat
  records : hc'.veilPadRecords.toNat + (if 0 < extra then 1 else 0) ≤
    hc.veilPadRecords.toNat

/-- The padding of a record never exceeds the room that is left. -/
theorem drawn_le_room {hc : HalfConn} {n draw : Nat} (open_ : ¬ hc.room n ≤ 0) :
    ((1 + draw % (hc.room n).toNat : Nat) : Int) ≤ hc.room n := by
  have below := Nat.mod_lt draw (by omega : 0 < (hc.room n).toNat)
  omega

theorem veilRecordPadding_takes {hc : HalfConn} {n draw : Nat} (fits : n ≤ maxPlaintext) :
    hc.Takes n (hc.veilRecordPadding n draw).1 (hc.veilRecordPadding n draw).2 := by
  unfold veilRecordPadding
  split
  · exact ⟨rfl, Nat.zero_le _, fits, rfl, Nat.le_refl _⟩
  next some_ =>
  have counted := toNat_sub_one some_
  simp only
  have same : HalfConn.room { hc with veilPadRecords := hc.veilPadRecords - 1 } n =
      hc.room n := rfl
  rw [same]
  split
  · refine ⟨rfl, Nat.zero_le _, fits, rfl, ?_⟩
    simp only [Nat.lt_irrefl, if_false]
    omega
  next open_ =>
  have drawn := @drawn_le_room hc n draw open_
  obtain ⟨plain, limited, covered⟩ := room_le hc n
  have spent := (@toNat_sub_ofNat hc.veilPadBytes (1 + draw % (hc.room n).toNat)
    (by omega)).2
  have positive : 0 < 1 + draw % (hc.room n).toNat := by omega
  split
  · refine ⟨rfl, by omega, by omega, spent, ?_⟩
    simp only [positive, if_true, UInt8.toNat_zero]
    omega
  · refine ⟨rfl, by omega, by omega, spent, ?_⟩
    simp only [positive, if_true]
    omega

/-- Nothing in the counting of one record ever wraps. -/
theorem veilRecordPadding_exact (hc : HalfConn) (n draw : Nat) : hc.Exact n draw := by
  have covered : (hc.veilRecordPadding n draw).1 ≤ hc.veilPadBytes.toNat := by
    unfold veilRecordPadding
    split
    · exact Nat.zero_le _
    simp only
    split
    · exact Nat.zero_le _
    next open_ =>
    have drawn := @drawn_le_room _ _ draw open_
    have bound := (room_le { hc with veilPadRecords := hc.veilPadRecords - 1 } n).2.2
    split <;> simp only at bound drawn ⊢ <;> omega
  obtain ⟨converted, bytes⟩ := toNat_sub_ofNat covered
  exact ⟨toNat_sub_one, converted, bytes⟩

/-! ## A sequence of records -/

/-- The padding of a sequence of records stays within the counters it begins with. -/
theorem padAll_spec {sent : List Drawn} (fits : ∀ r ∈ sent, r.length ≤ maxPlaintext)
    (hc : HalfConn) :
    (∀ extra ∈ (hc.padAll sent).1, extra ≤ hc.veilPadLimit.toNat) ∧
      (hc.padAll sent).1.countP (0 < ·) ≤ hc.veilPadRecords.toNat ∧
      (hc.padAll sent).1.sum ≤ hc.veilPadBytes.toNat ∧
      List.Forall₂ (fun r extra => r.length + extra ≤ maxPlaintext) sent
        (hc.padAll sent).1 := by
  induction sent generalizing hc with
  | nil => exact ⟨by simp [padAll], Nat.zero_le _, Nat.zero_le _, .nil⟩
  | cons r rest induction =>
      have takes := @veilRecordPadding_takes hc r.length r.draw
        (fits r List.mem_cons_self)
      obtain ⟨each, padded, total, within⟩ :=
        induction (fun r' later => fits r' (List.mem_cons_of_mem r later))
          (hc.veilRecordPadding r.length r.draw).2
      rw [padAll_cons]
      refine ⟨?_, ?_, ?_, .cons takes.fits within⟩
      · intro extra member
        rcases List.mem_cons.mp member with rfl | later
        · exact takes.size
        · rw [← takes.limit]
          exact each extra later
      · have records := takes.records
        rw [List.countP_cons]
        simp only [decide_eq_true_eq]
        omega
      · have bytes := takes.bytes
        rw [List.sum_cons]
        omega

/-- An installed triple holds for every sequence of records that follows. -/
structure Within (hc : HalfConn) (limit records budget : Int) (sent : List Drawn) :
    Prop where
  each : ∀ extra ∈ (hc.padAll sent).1, (extra : Int) ≤ limit
  padded : ((hc.padAll sent).1.countP (0 < ·) : Int) ≤ records
  total : ((hc.padAll sent).1.sum : Int) ≤ budget
  fits : List.Forall₂ (fun r extra => r.length + extra ≤ maxPlaintext) sent
    (hc.padAll sent).1
  exact : ∀ before r after, sent = before ++ r :: after →
    (hc.padAll before).2.Exact r.length r.draw

end HalfConn

/-! ## Installing a triple -/

/-- What `VeilSetPaddingBudget` accepts. -/
def Accepted (limit records budget : Int) : Prop :=
  (0 ≤ limit ∧ limit ≤ 512) ∧ (0 ≤ records ∧ records ≤ 12) ∧ 0 ≤ budget ∧ budget ≤ 4096

namespace Conn

variable {c c' : Conn} {limit records budget : Int}

theorem accepted_iff :
    (∃ c', c.veilSetPaddingBudget limit records budget = .ok c') ↔
      Accepted limit records budget := by
  unfold veilSetPaddingBudget Accepted
  split
  · next outside =>
      constructor
      · rintro ⟨_, refused⟩
        cases refused
      · intro inside
        omega
  · next inside =>
      constructor
      · intro _
        omega
      · intro _
        simp only
        split
        · exact ⟨_, rfl⟩
        · exact ⟨_, rfl⟩

/-- The counters after an installation hold the numbers that were passed, or nothing. -/
theorem installed (made : c.veilSetPaddingBudget limit records budget = .ok c') :
    (c.vers = versionTLS13 ∧ c.isHandshakeComplete = true →
      (c'.out.veilPadLimit.toNat : Int) = limit ∧
        (c'.out.veilPadRecords.toNat : Int) = records ∧
        (c'.out.veilPadBytes.toNat : Int) = budget) ∧
      (¬ (c.vers = versionTLS13 ∧ c.isHandshakeComplete = true) →
        c'.out.veilPadRecords = 0 ∧ c'.out.veilPadBytes = 0) := by
  have accepted := accepted_iff.mp ⟨c', made⟩
  obtain ⟨limited, counted, bounded⟩ := accepted
  unfold veilSetPaddingBudget at made
  split at made
  · cases made
  simp only at made
  split at made
  · next live =>
      cases made
      refine ⟨fun _ => ⟨?_, ?_, ?_⟩, fun dead => (dead live).elim⟩
      · simp only [UInt16.ofInt, UInt16.toNat_ofNat']
        omega
      · simp only [UInt8.ofInt, UInt8.toNat_ofNat']
        omega
      · simp only [UInt16.ofInt, UInt16.toNat_ofNat']
        omega
  · next dead =>
      cases made
      exact ⟨fun live => (dead live).elim, fun _ => ⟨rfl, rfl⟩⟩

theorem installed_within (made : c.veilSetPaddingBudget limit records budget = .ok c')
    {sent : List HalfConn.Drawn} (fits : ∀ r ∈ sent, r.length ≤ maxPlaintext) :
    c'.out.Within limit records budget sent := by
  obtain ⟨limited, counted, bounded⟩ := accepted_iff.mp ⟨c', made⟩
  obtain ⟨each, padded, total, within⟩ := HalfConn.padAll_spec fits c'.out
  obtain ⟨live, dead⟩ := installed made
  have single : ∀ extra ∈ (c'.out.padAll sent).1, extra ≤ (c'.out.padAll sent).1.sum :=
    fun extra member => List.single_le_sum (fun _ _ => Nat.zero_le _) extra member
  by_cases ready : c.vers = versionTLS13 ∧ c.isHandshakeComplete = true
  · obtain ⟨limit', records', budget'⟩ := live ready
    refine ⟨fun extra member => ?_, by omega, by omega, within, fun _ _ _ _ => ?_⟩
    · have small := each extra member
      omega
    · exact HalfConn.veilRecordPadding_exact _ _ _
  · obtain ⟨records', budget'⟩ := dead ready
    simp only [records', budget', UInt8.toNat_zero, UInt16.toNat_zero] at padded total
    refine ⟨fun extra member => ?_, by omega, by omega, within, fun _ _ _ _ => ?_⟩
    · have small := single extra member
      omega
    · exact HalfConn.veilRecordPadding_exact _ _ _

end Conn

end Veil.Tls
