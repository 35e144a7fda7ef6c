import Veil.Mux.Frame

/-!
# Traffic profiles

The ranges of `internal/mux/profile.go`.  A profile describes permitted
behaviour; each session narrows every range once and then draws from the
narrowed ranges.  A draw from a random source is an arbitrary number reduced
to the size of the range, so that statements about all draws are statements
about all numbers.
-/

namespace Veil.Mux

/-- An inclusive range. -/
structure Range where
  min : Nat
  max : Nat
  deriving DecidableEq, Repr

namespace Range

/-- `Range.choose`, with `draw` the number behind `rand.IntN`. -/
def choose (range : Range) (draw : Nat) : Nat :=
  range.min + draw % (range.max - range.min + 1)

/-- `Range.narrowed`: a quarter around a drawn centre, within the range. -/
def narrowed (range : Range) (draw : Nat) : Range :=
  let center := range.choose draw
  ⟨Max.max range.min (center - center / 4), Min.min range.max (center + center / 4)⟩

theorem choose_mem {range : Range} (ordered : range.min ≤ range.max) (draw : Nat) :
    range.min ≤ range.choose draw ∧ range.choose draw ≤ range.max := by
  have below := Nat.mod_lt draw (by omega : 0 < range.max - range.min + 1)
  simp only [choose]
  omega

theorem narrowed_within {range : Range} (ordered : range.min ≤ range.max) (draw : Nat) :
    range.min ≤ (range.narrowed draw).min ∧
      (range.narrowed draw).min ≤ (range.narrowed draw).max ∧
      (range.narrowed draw).max ≤ range.max := by
  have drawn := choose_mem ordered draw
  simp only [narrowed]
  omega

end Range

/-- `Profile`, with its ranges in source order. -/
structure Profile where
  version : Nat
  quantum : Range
  startupSize : Range
  startupWrites : Range
  paddingLimit : Range
  paddingBudget : Range
  creditBlocks : Range
  controlPadding : Range
  deriving DecidableEq, Repr

namespace Profile

def default : Profile :=
  ⟨1, ⟨8192, 32768⟩, ⟨512, 2048⟩, ⟨2, 6⟩, ⟨64, 256⟩, ⟨512, 1024⟩, ⟨16, 64⟩, ⟨16, 96⟩⟩

/-- One row of the table in `Profile.Validate`. -/
def within (range : Range) (low high : Nat) : Bool :=
  low ≤ range.min && range.max ≤ high && range.min ≤ range.max

/-- `Profile.Validate` reports no error. -/
def validate (p : Profile) : Bool :=
  p.version == 1 &&
    within p.quantum 4096 blockSize && within p.startupSize 128 8192 &&
    within p.startupWrites 0 12 && within p.paddingLimit 0 512 &&
    within p.paddingBudget 0 4096 && within p.creditBlocks 16 64 &&
    within p.controlPadding 0 128

/-- The default profile passes its own check. -/
theorem validate_default : default.validate = true := by
  decide

end Profile

/-- `shape`: one session's narrowed ranges and its startup countdown. -/
structure Shape where
  quantum : Range
  credit : Range
  startup : Range
  writes : Range
  limit : Range
  budget : Range
  control : Range
  remaining : Nat
  deriving DecidableEq, Repr

/-- `newShape`, with one draw for each range in source order. -/
def newShape (p : Profile) (draw : Nat → Nat) : Shape where
  quantum := p.quantum.narrowed (draw 0)
  credit := p.creditBlocks.narrowed (draw 1)
  startup := p.startupSize.narrowed (draw 2)
  writes := p.startupWrites.narrowed (draw 3)
  limit := p.paddingLimit.narrowed (draw 4)
  budget := p.paddingBudget.narrowed (draw 5)
  control := p.controlPadding.narrowed (draw 6)
  remaining := 0

namespace Shape

/-- What the sender and receiver rely on in a shape. -/
structure Valid (shape : Shape) : Prop where
  credit_low : 16 ≤ shape.credit.min
  credit_ordered : shape.credit.min ≤ shape.credit.max
  credit_high : shape.credit.max ≤ 64
  quantum_low : 4096 ≤ shape.quantum.min
  quantum_ordered : shape.quantum.min ≤ shape.quantum.max
  quantum_high : shape.quantum.max ≤ blockSize
  startup_low : 128 ≤ shape.startup.min
  startup_ordered : shape.startup.min ≤ shape.startup.max

/-- A refund threshold is never zero. -/
theorem Valid.credit_pos {shape : Shape} (valid : shape.Valid) (draw : Nat) :
    0 < shape.credit.choose draw := by
  have low := valid.credit_low
  have drawn := (Range.choose_mem valid.credit_ordered draw).1
  omega

end Shape

/-- The shape of a validated profile is valid, whatever is drawn. -/
theorem newShape_valid {p : Profile} (valid : p.validate = true) (draw : Nat → Nat) :
    (newShape p draw).Valid := by
  simp only [Profile.validate, Profile.within, Bool.and_eq_true, decide_eq_true_eq]
    at valid
  obtain ⟨⟨⟨⟨⟨⟨⟨-, ⟨quantumLow, quantumHigh⟩, quantum⟩,
    ⟨startupLow, -⟩, startup⟩, -⟩, -⟩, -⟩, ⟨creditLow, creditHigh⟩, credit⟩, -⟩ := valid
  have narrowQuantum := Range.narrowed_within quantum (draw 0)
  have narrowCredit := Range.narrowed_within credit (draw 1)
  have narrowStartup := Range.narrowed_within startup (draw 2)
  exact {
    credit_low := creditLow.trans narrowCredit.1
    credit_ordered := narrowCredit.2.1
    credit_high := narrowCredit.2.2.trans creditHigh
    quantum_low := quantumLow.trans narrowQuantum.1
    quantum_ordered := narrowQuantum.2.1
    quantum_high := narrowQuantum.2.2.trans quantumHigh
    startup_low := startupLow.trans narrowStartup.1
    startup_ordered := narrowStartup.2.1 }

end Veil.Mux
