import Veil.Mux.Profile

/-!
# Traffic ranges of the Rust implementation

`Traffic` of `veil-rust/src/config.rs`, its check, and the narrowing that
`Session::start` does once.  `Range::sample` and `Range::narrowed` are those of
the Go profile; the ranges for padding must be empty here.
-/

namespace Veil.Rust

open Veil.Mux (Range blockSize)

structure Traffic where
  version : Nat
  quantumBytes : Range
  startupBytes : Range
  startupWrites : Range
  paddingLimit : Range
  paddingBudget : Range
  creditBlocks : Range
  controlPaddingLimit : Range
  deriving DecidableEq, Repr

namespace Traffic

def default : Traffic :=
  ⟨1, ⟨8192, 32768⟩, ⟨512, 2048⟩, ⟨2, 6⟩, ⟨0, 0⟩, ⟨0, 0⟩, ⟨16, 64⟩, ⟨0, 0⟩⟩

/-- `Traffic::validate` reports no error. -/
def validate (t : Traffic) : Bool :=
  t.version == 1 &&
    [(t.quantumBytes, 4096, 32768), (t.startupBytes, 128, 8192),
      (t.startupWrites, 0, 12), (t.creditBlocks, 16, 64)].all
      (fun (r, low, high) => low ≤ r.min && r.max ≤ high && r.min ≤ r.max) &&
    [t.paddingLimit, t.paddingBudget, t.controlPaddingLimit].all
      fun r => r.min == 0 && r.max == 0

/-- The default ranges pass their own check. -/
theorem validate_default : default.validate = true := by
  decide

/-- The ranges `Session::start` narrows, with one draw for each. -/
def narrowed (t : Traffic) (draw : Nat → Nat) : Traffic :=
  { t with
    quantumBytes := t.quantumBytes.narrowed (draw 0)
    creditBlocks := t.creditBlocks.narrowed (draw 1)
    startupBytes := t.startupBytes.narrowed (draw 2)
    startupWrites := t.startupWrites.narrowed (draw 3) }

/-- What the sender and receiver rely on in narrowed ranges. -/
structure Valid (t : Traffic) : Prop where
  quantum_low : 4096 ≤ t.quantumBytes.min
  quantum_ordered : t.quantumBytes.min ≤ t.quantumBytes.max
  quantum_high : t.quantumBytes.max ≤ blockSize
  credit_low : 16 ≤ t.creditBlocks.min
  credit_ordered : t.creditBlocks.min ≤ t.creditBlocks.max
  credit_high : t.creditBlocks.max ≤ 64
  startup_low : 128 ≤ t.startupBytes.min
  startup_ordered : t.startupBytes.min ≤ t.startupBytes.max

/-- The threshold for CREDIT is positive and fits its `u16`. -/
theorem Valid.credit_mem {t : Traffic} (valid : t.Valid) (draw : Nat) :
    0 < t.creditBlocks.choose draw ∧ t.creditBlocks.choose draw ≤ 64 := by
  have drawn := Range.choose_mem valid.credit_ordered draw
  have low := valid.credit_low
  have high := valid.credit_high
  omega

/-- Validated ranges are valid after narrowing, whatever is drawn. -/
theorem narrowed_valid {t : Traffic} (valid : t.validate = true) (draw : Nat → Nat) :
    (t.narrowed draw).Valid := by
  simp only [validate, List.all_cons, List.all_nil, Bool.and_eq_true, decide_eq_true_eq,
    Bool.and_true] at valid
  obtain ⟨⟨-, ⟨⟨quantumLow, quantumHigh⟩, quantum⟩, ⟨⟨startupLow, -⟩, startup⟩, -,
    ⟨creditLow, creditHigh⟩, credit⟩, -⟩ := valid
  have narrowQuantum := Range.narrowed_within quantum (draw 0)
  have narrowCredit := Range.narrowed_within credit (draw 1)
  have narrowStartup := Range.narrowed_within startup (draw 2)
  exact {
    quantum_low := quantumLow.trans narrowQuantum.1
    quantum_ordered := narrowQuantum.2.1
    quantum_high := narrowQuantum.2.2.trans quantumHigh
    credit_low := creditLow.trans narrowCredit.1
    credit_ordered := narrowCredit.2.1
    credit_high := narrowCredit.2.2.trans creditHigh
    startup_low := startupLow.trans narrowStartup.1
    startup_ordered := narrowStartup.2.1 }

end Traffic

end Veil.Rust
