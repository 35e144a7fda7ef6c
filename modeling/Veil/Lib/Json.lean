import Mathlib.Algebra.Order.BigOperators.Group.List
import Mathlib.Data.List.Basic
import Mathlib.Tactic.IntervalCases

/-!
# JSON texts

Values, the two layouts of an encoder (compact, or one member a line indented
by two spaces) and a decoder.  Strings are escaped as an encoder that is safe
inside HTML escapes them.  The numbers are integers: a fraction or an exponent
is left unread and the text refused.

The main result is `Json.parse_print`: the decoder reads back what the encoder
wrote in either layout, with or without a newline after it.
-/

namespace Veil.Lib

/-- The characters of a string or of a file. -/
abbrev Text := List Char

/-- The length of a text in bytes. -/
def Text.bytes (text : Text) : Nat :=
  (text.map Char.utf8Size).sum

@[simp]
theorem Text.bytes_nil : Text.bytes [] = 0 := by
  simp [Text.bytes]

@[simp]
theorem Text.bytes_cons (char : Char) (text : Text) :
    Text.bytes (char :: text) = char.utf8Size + Text.bytes text := by
  simp [Text.bytes]

@[simp]
theorem Text.bytes_append (left right : Text) :
    Text.bytes (left ++ right) = Text.bytes left + Text.bytes right := by
  simp [Text.bytes]

/-- A JSON value whose numbers are integers. -/
inductive Json where
  | null
  | bool (value : Bool)
  | num (value : Int)
  | str (value : Text)
  | arr (items : List Json)
  | obj (members : List (Text × Json))

namespace Json

/-! ## Characters of a string -/

def hexDigit (digit : Nat) : Char :=
  if digit < 10 then Char.ofNat (48 + digit) else Char.ofNat (87 + digit)

/-- The value of a hexadecimal digit in either case. -/
def hexValue (char : Char) : Option Nat :=
  let code := char.toNat
  if 48 ≤ code ∧ code ≤ 57 then some (code - 48)
  else if 97 ≤ code ∧ code ≤ 102 then some (code - 87)
  else if 65 ≤ code ∧ code ≤ 70 then some (code - 55)
  else none

theorem hexValue_hexDigit (digit : Nat) (small : digit < 16) :
    hexValue (hexDigit digit) = some digit := by
  have table : ∀ digit : Fin 16,
      hexValue (hexDigit digit.val) = some digit.val := by
    decide
  exact table ⟨digit, small⟩

def hexCode (code : Nat) : Text :=
  ['\\', 'u', hexDigit (code / 4096 % 16), hexDigit (code / 256 % 16),
    hexDigit (code / 16 % 16), hexDigit (code % 16)]

/-- Control characters, the characters of HTML markup and the two line
separators outside ASCII are written as codes. -/
def coded (char : Char) : Bool :=
  char.toNat < 32 || char = '<' || char = '>' || char = '&' ||
    char.toNat = 0x2028 || char.toNat = 0x2029

def escape (char : Char) : Text :=
  if char = '"' then ['\\', '"']
  else if char = '\\' then ['\\', '\\']
  else if char.toNat = 8 then ['\\', 'b']
  else if char.toNat = 12 then ['\\', 'f']
  else if char = '\n' then ['\\', 'n']
  else if char = '\r' then ['\\', 'r']
  else if char = '\t' then ['\\', 't']
  else if coded char then hexCode char.toNat
  else [char]

def quote (text : Text) : Text :=
  '"' :: (text.flatMap escape ++ ['"'])

def codeUnit : Text → Option (Nat × Text)
  | first :: second :: third :: fourth :: rest => do
      let a ← hexValue first
      let b ← hexValue second
      let c ← hexValue third
      let d ← hexValue fourth
      some (4096 * a + 256 * b + 16 * c + d, rest)
  | _ => none

def replacement : Char := Char.ofNat 0xFFFD

/-- The character of a `\u` escape: a pair of surrogates is one character, a
lone surrogate the replacement character. -/
def codePoint (text : Text) : Option (Char × Text) := do
  let (code, rest) ← codeUnit text
  if 0xD800 ≤ code ∧ code < 0xDC00 then
    match rest with
    | '\\' :: 'u' :: after => do
        let (low, last) ← codeUnit after
        if 0xDC00 ≤ low ∧ low < 0xE000 then
          some (Char.ofNat
            (0x10000 + (code - 0xD800) * 0x400 + (low - 0xDC00)), last)
        else some (replacement, rest)
    | _ => some (replacement, rest)
  else if 0xDC00 ≤ code ∧ code < 0xE000 then some (replacement, rest)
  else some (Char.ofNat code, rest)

/-- The character a backslash introduces. -/
def unescape : Text → Option (Char × Text)
  | '"' :: rest => some ('"', rest)
  | '\\' :: rest => some ('\\', rest)
  | '/' :: rest => some ('/', rest)
  | 'b' :: rest => some (Char.ofNat 8, rest)
  | 'f' :: rest => some (Char.ofNat 12, rest)
  | 'n' :: rest => some ('\n', rest)
  | 'r' :: rest => some ('\r', rest)
  | 't' :: rest => some ('\t', rest)
  | 'u' :: rest => codePoint rest
  | _ => none

/-- The next character of a string body. -/
def nextChar : Text → Option (Char × Text)
  | [] => none
  | char :: rest =>
      if char = '\\' then unescape rest
      else if char.toNat < 32 then none
      else some (char, rest)

theorem codeUnit_hexCode (code : Nat) (small : code < 65536) (rest : Text) :
    codeUnit ((hexCode code).drop 2 ++ rest) = some (code, rest) := by
  have split :
      4096 * (code / 4096 % 16) + 256 * (code / 256 % 16) +
        16 * (code / 16 % 16) + code % 16 = code := by
    omega
  simp only [hexCode, List.drop_succ_cons, List.drop_zero, List.cons_append,
    List.nil_append, codeUnit]
  rw [hexValue_hexDigit _ (Nat.mod_lt _ (by decide)),
    hexValue_hexDigit _ (Nat.mod_lt _ (by decide)),
    hexValue_hexDigit _ (Nat.mod_lt _ (by decide)),
    hexValue_hexDigit _ (Nat.mod_lt _ (by decide))]
  simp [split]

/-- A code below the surrogates is read back. -/
theorem nextChar_hexCode (char : Char) (low : char.toNat < 0xD800)
    (rest : Text) :
    nextChar (hexCode char.toNat ++ rest) = some (char, rest) := by
  have unit := codeUnit_hexCode char.toNat (by omega) rest
  have point : codePoint ((hexCode char.toNat).drop 2 ++ rest) =
      some (char, rest) := by
    simp only [codePoint, unit, Option.bind_eq_bind, Option.bind_some]
    rw [if_neg (by omega), if_neg (by omega), Char.ofNat_toNat]
  simpa [nextChar, unescape, hexCode] using point

theorem low_of_coded {char : Char} (isCoded : coded char = true) :
    char.toNat < 0xD800 := by
  simp only [coded, Bool.or_eq_true, decide_eq_true_eq] at isCoded
  obtain ((((small | rfl) | rfl) | rfl) | large) | large := isCoded
  · omega
  · decide
  · decide
  · decide
  · omega
  · omega

/-- The decoder reads back an escaped character. -/
theorem nextChar_escape (char : Char) (rest : Text) :
    nextChar (escape char ++ rest) = some (char, rest) := by
  have named (code : Nat) (same : char.toNat = code) :
      char = Char.ofNat code := by
    rw [← same, Char.ofNat_toNat]
  unfold escape
  split_ifs with isQuote isSlash isBack isFeed isLine isReturn isTab isCoded
  · simp [nextChar, unescape, isQuote]
  · simp [nextChar, unescape, isSlash]
  · simp [nextChar, unescape, named 8 isBack]
  · simp [nextChar, unescape, named 12 isFeed]
  · simp [nextChar, unescape, isLine]
  · simp [nextChar, unescape, isReturn]
  · simp [nextChar, unescape, isTab]
  · exact nextChar_hexCode char (low_of_coded isCoded) rest
  · have large : ¬char.toNat < 32 := by
      intro small
      simp [coded, small] at isCoded
    simp [nextChar, isSlash, large]

theorem escape_ne_nil (char : Char) : escape char ≠ [] := by
  unfold escape hexCode
  split_ifs <;> simp

/-- An escaped character does not start with the quote that ends a string. -/
theorem escape_head (char : Char) (rest : Text) :
    ∃ head tail, escape char ++ rest = head :: tail ∧ head ≠ '"' := by
  unfold escape hexCode
  split_ifs with isQuote
  all_goals first
    | exact ⟨_, _, rfl, by decide⟩
    | exact ⟨_, _, rfl, isQuote⟩

/-- The rest of a string, up to and with its closing quote. -/
def chars : Nat → Text → Option (Text × Text)
  | 0, _ => none
  | fuel + 1, text =>
      match text with
      | '"' :: rest => some ([], rest)
      | _ => do
          let (char, rest) ← nextChar text
          let (more, last) ← chars fuel rest
          some (char :: more, last)

theorem chars_escape (text rest : Text) (fuel : Nat)
    (enough : text.length < fuel) :
    chars fuel (text.flatMap escape ++ '"' :: rest) = some (text, rest) := by
  induction text generalizing fuel with
  | nil =>
      cases fuel with
      | zero => simp at enough
      | succ fuel => simp [chars]
  | cons char text ih =>
      cases fuel with
      | zero => simp at enough
      | succ fuel =>
          obtain ⟨head, tail, shape, other⟩ :=
            escape_head char (text.flatMap escape ++ '"' :: rest)
          have read := nextChar_escape char
            (text.flatMap escape ++ '"' :: rest)
          rw [List.flatMap_cons, List.append_assoc]
          rw [shape] at read ⊢
          have more := ih fuel (by simpa using enough)
          unfold chars
          split
          · simp_all
          · simp [read, more]

/-- A quoted string. -/
def quoted (text : Text) : Option (Text × Text) :=
  chars text.length text

theorem length_flatMap_escape (text : Text) :
    text.length ≤ (text.flatMap escape).length := by
  induction text with
  | nil => simp
  | cons char text ih =>
      have one : 0 < (escape char).length :=
        List.length_pos_iff.mpr (escape_ne_nil char)
      simp only [List.flatMap_cons, List.length_append, List.length_cons]
      omega

theorem quoted_quote (text rest : Text) :
    quoted (text.flatMap escape ++ '"' :: rest) = some (text, rest) := by
  apply chars_escape
  have longer := length_flatMap_escape text
  simp only [List.length_append, List.length_cons]
  omega

/-! ## Numbers -/

def printInt : Int → Text
  | .ofNat value => Nat.toDigits 10 value
  | .negSucc value => '-' :: Nat.toDigits 10 (value + 1)

/-- A run of digits without a leading zero. -/
def natural (text : Text) : Option (Nat × Text) :=
  let digits := text.takeWhile Char.isDigit
  if digits = [] || (digits.head? = some '0' && 1 < digits.length) then none
  else some (Nat.ofDigitChars 10 digits 0, text.dropWhile Char.isDigit)

def number : Text → Option (Int × Text)
  | '-' :: rest => (natural rest).map fun read => (-(read.1 : Int), read.2)
  | text => (natural text).map fun read => ((read.1 : Int), read.2)

/-- No digit follows: what stands behind a value ends a number. -/
def Stops (rest : Text) : Prop :=
  ∀ char ∈ rest.head?, char.isDigit = false

theorem digitChar_ne_zero {digit : Nat} (positive : 0 < digit)
    (small : digit < 10) : digit.digitChar ≠ '0' := by
  interval_cases digit <;> decide

/-- A decimal numeral has no leading zero. -/
theorem head_toDigits (value : Nat) (positive : 0 < value) :
    (Nat.toDigits 10 value).head? ≠ some '0' := by
  induction value using Nat.strong_induction_on with
  | _ value ih =>
      by_cases small : value < 10
      · simpa [Nat.toDigits_of_lt_base small] using
          digitChar_ne_zero positive small
      · have upper : 0 < value / 10 := by omega
        rw [Nat.toDigits_of_base_le (by decide) (by omega),
          List.head?_append]
        have nonempty := Nat.toDigits_ne_nil (n := value / 10) (b := 10)
        have first := ih (value / 10) (by omega) upper
        cases shape : Nat.toDigits 10 (value / 10) with
        | nil => exact absurd shape nonempty
        | cons digit digits => simpa [shape] using first

theorem takeWhile_digits {digits rest : Text}
    (all : ∀ char ∈ digits, char.isDigit = true) (stops : Stops rest) :
    (digits ++ rest).takeWhile Char.isDigit = digits ∧
      (digits ++ rest).dropWhile Char.isDigit = rest := by
  have tail : rest.takeWhile Char.isDigit = [] ∧
      rest.dropWhile Char.isDigit = rest := by
    cases rest with
    | nil => simp
    | cons char rest =>
        have other : char.isDigit = false := stops char (by simp)
        simp [other]
  constructor
  · rw [List.takeWhile_append_of_pos all, tail.1, List.append_nil]
  · rw [List.dropWhile_append_of_pos all, tail.2]

theorem natural_toDigits (value : Nat) {rest : Text} (stops : Stops rest) :
    natural (Nat.toDigits 10 value ++ rest) = some (value, rest) := by
  have all : ∀ char ∈ Nat.toDigits 10 value, char.isDigit = true :=
    fun char member =>
      Nat.isDigit_of_mem_toDigits (by decide) (by decide) member
  obtain ⟨taken, dropped⟩ := takeWhile_digits all stops
  have valid : ¬(Nat.toDigits 10 value = [] ∨
      (Nat.toDigits 10 value).head? = some '0' ∧
        1 < (Nat.toDigits 10 value).length) := by
    rintro (empty | ⟨zero, long⟩)
    · exact Nat.toDigits_ne_nil empty
    · cases value with
      | zero => simp at long
      | succ value => exact head_toDigits _ (Nat.succ_pos value) zero
  simp only [natural, taken, dropped]
  simpa [Nat.ofDigitChars_toDigits] using valid

theorem toDigits_head_digit (value : Nat) (rest : Text) :
    ∃ head tail, Nat.toDigits 10 value ++ rest = head :: tail ∧
      head.isDigit = true := by
  cases shape : Nat.toDigits 10 value with
  | nil => exact absurd shape Nat.toDigits_ne_nil
  | cons head tail =>
      have member : head ∈ Nat.toDigits 10 value := by simp [shape]
      exact ⟨head, tail ++ rest, rfl,
        Nat.isDigit_of_mem_toDigits (by decide) (by decide) member⟩

theorem number_printInt (value : Int) {rest : Text} (stops : Stops rest) :
    number (printInt value ++ rest) = some (value, rest) := by
  cases value with
  | ofNat value =>
      obtain ⟨head, tail, shape, digit⟩ := toDigits_head_digit value rest
      have read := natural_toDigits value stops
      have other : head ≠ '-' := by
        rintro rfl
        exact absurd digit (by decide)
      simp only [printInt]
      rw [shape] at read ⊢
      unfold number
      split
      · simp_all
      · simp [read]
  | negSucc value =>
      have read := natural_toDigits (value + 1) stops
      simp only [printInt, List.cons_append, number, read, Option.map_some]
      rfl

/-! ## Values -/

inductive Layout
  | compact
  | indent
  deriving DecidableEq

namespace Layout

/-- The break before an item, a member or a closing bracket. -/
def line : Layout → Nat → Text
  | .compact, _ => []
  | .indent, depth => '\n' :: List.replicate (2 * depth) ' '

def colon : Layout → Text
  | .compact => [':']
  | .indent => [':', ' ']

end Layout

mutual

def print (layout : Layout) (depth : Nat) : Json → Text
  | .null => ['n', 'u', 'l', 'l']
  | .bool true => ['t', 'r', 'u', 'e']
  | .bool false => ['f', 'a', 'l', 's', 'e']
  | .num value => printInt value
  | .str value => quote value
  | .arr [] => ['[', ']']
  | .arr (item :: items) =>
      '[' :: (layout.line (depth + 1) ++ print layout (depth + 1) item ++
        printItems layout depth items)
  | .obj [] => ['{', '}']
  | .obj ((key, value) :: members) =>
      '{' :: (layout.line (depth + 1) ++ quote key ++ layout.colon ++
        print layout (depth + 1) value ++ printMembers layout depth members)

/-- The items after the first, each with the comma before it, and the bracket
that closes the array. -/
def printItems (layout : Layout) (depth : Nat) : List Json → Text
  | [] => layout.line depth ++ [']']
  | item :: items =>
      ',' :: (layout.line (depth + 1) ++ print layout (depth + 1) item ++
        printItems layout depth items)

def printMembers (layout : Layout) (depth : Nat) : List (Text × Json) → Text
  | [] => layout.line depth ++ ['}']
  | (key, value) :: members =>
      ',' :: (layout.line (depth + 1) ++ quote key ++ layout.colon ++
        print layout (depth + 1) value ++ printMembers layout depth members)

end

def isSpace (char : Char) : Bool :=
  char = ' ' || char = '\n' || char = '\r' || char = '\t'

def skip (text : Text) : Text :=
  text.dropWhile isSpace

/-- A value that is neither an array, an object nor a string. -/
def scalar : Text → Option (Json × Text)
  | 'n' :: 'u' :: 'l' :: 'l' :: rest => some (.null, rest)
  | 't' :: 'r' :: 'u' :: 'e' :: rest => some (.bool true, rest)
  | 'f' :: 'a' :: 'l' :: 's' :: 'e' :: rest => some (.bool false, rest)
  | text => (number text).map fun read => (.num read.1, read.2)

mutual

/-- The first value of a text and what follows it. -/
def value : Nat → Text → Option (Json × Text)
  | 0, _ => none
  | fuel + 1, text =>
      match skip text with
      | '"' :: rest => (quoted rest).map fun read => (.str read.1, read.2)
      | '[' :: rest =>
          match skip rest with
          | ']' :: after => some (.arr [], after)
          | _ => do
              let (item, after) ← value fuel rest
              let (items, last) ← items fuel after
              some (.arr (item :: items), last)
      | '{' :: rest =>
          match skip rest with
          | '}' :: after => some (.obj [], after)
          | _ => do
              let (first, after) ← member fuel rest
              let (more, last) ← members fuel after
              some (.obj (first :: more), last)
      | other => scalar other

def items : Nat → Text → Option (List Json × Text)
  | 0, _ => none
  | fuel + 1, text =>
      match skip text with
      | ']' :: rest => some ([], rest)
      | ',' :: rest => do
          let (item, after) ← value fuel rest
          let (more, last) ← items fuel after
          some (item :: more, last)
      | _ => none

def member : Nat → Text → Option ((Text × Json) × Text)
  | 0, _ => none
  | fuel + 1, text =>
      match skip text with
      | '"' :: rest => do
          let (key, after) ← quoted rest
          match skip after with
          | ':' :: behind => do
              let (read, last) ← value fuel behind
              some ((key, read), last)
          | _ => none
      | _ => none

def members : Nat → Text → Option (List (Text × Json) × Text)
  | 0, _ => none
  | fuel + 1, text =>
      match skip text with
      | '}' :: rest => some ([], rest)
      | ',' :: rest => do
          let (first, after) ← member fuel rest
          let (more, last) ← members fuel after
          some (first :: more, last)
      | _ => none

end

/-- The one value of a text. -/
def parse (text : Text) : Option Json :=
  match value (text.length + 1) text with
  | some (read, rest) => if skip rest = [] then some read else none
  | none => none

/-! ## Reading back what was written -/

@[simp]
theorem skip_line (layout : Layout) (depth : Nat) (text : Text) :
    skip (layout.line depth ++ text) = skip text := by
  have spaces : ∀ char ∈ layout.line depth, isSpace char = true := by
    cases layout with
    | compact => simp [Layout.line]
    | indent => simp [Layout.line, isSpace]
  rw [skip, List.dropWhile_append_of_pos spaces, skip]

theorem skip_cons {char : Char} (text : Text) (solid : isSpace char = false) :
    skip (char :: text) = char :: text := by
  simp [skip, solid]

theorem skip_colon (layout : Layout) (text : Text) :
    ∃ after, skip (layout.colon ++ text) = ':' :: after ∧
      skip after = skip text := by
  cases layout with
  | compact => exact ⟨text, rfl, rfl⟩
  | indent => exact ⟨' ' :: text, rfl, rfl⟩

theorem printInt_head (value : Int) (rest : Text) :
    ∃ head tail, printInt value ++ rest = head :: tail ∧
      (head = '-' ∨ head.isDigit = true) := by
  cases value with
  | ofNat value =>
      obtain ⟨head, tail, shape, digit⟩ := toDigits_head_digit value rest
      exact ⟨head, tail, shape, Or.inr digit⟩
  | negSucc value => exact ⟨'-', _, rfl, Or.inl rfl⟩

theorem scalar_printInt (number : Int) {rest : Text} (stops : Stops rest) :
    scalar (printInt number ++ rest) = some (.num number, rest) := by
  obtain ⟨head, tail, shape, starts⟩ := printInt_head number rest
  have read := number_printInt number stops
  rw [shape] at read ⊢
  have other (letter : Char) (outside : letter.isDigit = false)
      (noSign : letter ≠ '-') : head ≠ letter := by
    rintro rfl
    cases starts with
    | inl sign => exact noSign sign
    | inr digit => simp [digit] at outside
  unfold scalar
  split
  next same =>
    exact absurd (List.cons.inj same).1 (other 'n' (by decide) (by decide))
  next same =>
    exact absurd (List.cons.inj same).1 (other 't' (by decide) (by decide))
  next same =>
    exact absurd (List.cons.inj same).1 (other 'f' (by decide) (by decide))
  next => simp [read]

/-- The first character of a value is neither a space nor a closing bracket. -/
theorem print_head (layout : Layout) (depth : Nat) (json : Json) :
    ∃ head tail, print layout depth json = head :: tail ∧
      isSpace head = false ∧ head ≠ ']' := by
  cases json with
  | null => exact ⟨_, _, by rw [print], by decide, by decide⟩
  | bool value => cases value <;> exact ⟨_, _, by rw [print], by decide, by decide⟩
  | num value =>
      obtain ⟨head, tail, shape, starts⟩ := printInt_head value []
      rw [List.append_nil] at shape
      refine ⟨head, tail, by rw [print, shape], ?_, ?_⟩
      · cases starts with
        | inl sign => simp [sign, isSpace]
        | inr digit =>
            apply Bool.eq_false_iff.mpr
            intro space
            simp only [isSpace, Bool.or_eq_true, decide_eq_true_eq] at space
            obtain ((rfl | rfl) | rfl) | rfl := space <;> simp at digit
      · rintro rfl
        simp at starts
  | str value => exact ⟨_, _, by rw [print, quote], by decide, by decide⟩
  | arr items =>
      cases items <;> exact ⟨_, _, by rw [print], by decide, by decide⟩
  | obj members =>
      cases members <;> exact ⟨_, _, by rw [print], by decide, by decide⟩

theorem skip_print (layout : Layout) (depth : Nat) (json : Json)
    (rest : Text) :
    skip (print layout depth json ++ rest) = print layout depth json ++ rest := by
  obtain ⟨head, tail, shape, solid, _⟩ := print_head layout depth json
  rw [shape, List.cons_append, skip_cons _ solid]

theorem stops_items (layout : Layout) (depth : Nat) (items : List Json)
    (rest : Text) : Stops (printItems layout depth items ++ rest) := by
  cases items with
  | nil => cases layout <;> simp [Stops, printItems, Layout.line]
  | cons item items => simp [Stops, printItems]

theorem stops_members (layout : Layout) (depth : Nat)
    (members : List (Text × Json)) (rest : Text) :
    Stops (printMembers layout depth members ++ rest) := by
  cases members with
  | nil => cases layout <;> simp [Stops, printMembers, Layout.line]
  | cons entry members => simp [Stops, printMembers]

/-- An integer stands where a value is read. -/
theorem value_number (number : Int) {text rest : Text} {fuel : Nat}
    (read : skip text = printInt number ++ rest) (stops : Stops rest)
    (enough : 0 < fuel) : value fuel text = some (.num number, rest) := by
  obtain ⟨head, tail, shape, starts⟩ := printInt_head number rest
  have scalars := scalar_printInt number stops
  rw [shape] at scalars read
  have other (letter : Char) (outside : letter.isDigit = false)
      (noSign : letter ≠ '-') : head ≠ letter := by
    rintro rfl
    cases starts with
    | inl sign => exact noSign sign
    | inr digit => simp [digit] at outside
  cases fuel with
  | zero => simp at enough
  | succ fuel =>
      have noQuote := other '"' (by decide) (by decide)
      have noArray := other '[' (by decide) (by decide)
      have noObject := other '{' (by decide) (by decide)
      unfold value
      rw [read]
      split <;> simp_all

/-- An array that is not empty: its first item, then the others. -/
theorem value_array {text rest after last : Text} {fuel : Nat}
    {item : Json} {more : List Json}
    (read : skip text = '[' :: rest)
    (inside : ∀ closed, skip rest ≠ ']' :: closed)
    (first : value fuel rest = some (item, after))
    (others : items fuel after = some (more, last)) :
    value (fuel + 1) text = some (.arr (item :: more), last) := by
  unfold value
  rw [read]
  simp only
  simp [first, others]

theorem value_object {text rest after last : Text} {fuel : Nat}
    {entry : Text × Json} {more : List (Text × Json)}
    (read : skip text = '{' :: rest)
    (inside : ∀ closed, skip rest ≠ '}' :: closed)
    (first : member fuel rest = some (entry, after))
    (others : members fuel after = some (more, last)) :
    value (fuel + 1) text = some (.obj (entry :: more), last) := by
  unfold value
  rw [read]
  simp only
  simp [first, others]

/-- A member: its key, the colon and its value. -/
theorem member_quote (layout : Layout) (key : Text) {text tail last : Text}
    {fuel : Nat} {content : Json}
    (read : skip text = quote key ++ layout.colon ++ tail)
    (inner : ∀ text, skip text = skip tail →
      value fuel text = some (content, last)) :
    member (fuel + 1) text = some ((key, content), last) := by
  obtain ⟨behind, shape, same⟩ := skip_colon layout tail
  simp only [quote, List.cons_append, List.append_assoc,
    List.nil_append] at read
  simp [member, read, quoted_quote, shape, inner behind same]

mutual

theorem value_print (layout : Layout) (depth : Nat) (json : Json)
    {text rest : Text} {fuel : Nat}
    (read : skip text = print layout depth json ++ rest)
    (stops : Stops rest)
    (enough : (print layout depth json).length ≤ fuel) :
    value fuel text = some (json, rest) := by
  match json, fuel with
  | .null, 0 | .bool true, 0 | .bool false, 0 | .str _, 0 | .arr [], 0
  | .arr (_ :: _), 0 | .obj [], 0 | .obj (_ :: _), 0 =>
      simp [print, quote] at enough
  | .null, fuel + 1 => simp [value, read, print, scalar]
  | .bool true, fuel + 1 => simp [value, read, print, scalar]
  | .bool false, fuel + 1 => simp [value, read, print, scalar]
  | .num number, fuel =>
      rw [print] at read enough
      obtain ⟨head, tail, shape, _⟩ := printInt_head number []
      rw [List.append_nil] at shape
      have longer : 0 < (printInt number).length := by simp [shape]
      exact value_number number read stops (by omega)
  | .str content, fuel + 1 =>
      simp only [print, quote, List.cons_append, List.append_assoc,
        List.nil_append] at read
      simp [value, read, quoted_quote]
  | .arr [], fuel + 1 =>
      simp only [print, List.cons_append, List.nil_append] at read
      have closed : skip (']' :: rest) = ']' :: rest :=
        skip_cons rest (by decide)
      simp [value, read, closed]
  | .obj [], fuel + 1 =>
      simp only [print, List.cons_append, List.nil_append] at read
      have closed : skip ('}' :: rest) = '}' :: rest :=
        skip_cons rest (by decide)
      simp [value, read, closed]
  | .arr (item :: list), fuel + 1 =>
      simp only [print, List.cons_append, List.append_assoc] at read
      simp only [print, List.length_cons, List.length_append] at enough
      apply value_array read
      · intro closed
        obtain ⟨head, tail, shape, _, inside⟩ :=
          print_head layout (depth + 1) item
        rw [skip_line, skip_print, shape]
        simpa using fun same => absurd same inside
      · exact value_print layout (depth + 1) item
          (by rw [skip_line, skip_print])
          (stops_items layout depth list rest) (by omega)
      · exact items_print layout depth list (by omega)
  | .obj ((key, content) :: list), fuel + 1 =>
      simp only [print, List.cons_append, List.append_assoc] at read
      simp only [print, List.length_cons, List.length_append] at enough
      apply value_object read
      · intro closed
        rw [skip_line, quote, List.cons_append, skip_cons _ (by decide)]
        simp
      · exact member_print layout depth key content
          (by rw [skip_line, quote, List.cons_append, skip_cons _ (by decide)])
          (stops_members layout depth list rest)
          (by simp only [List.length_append]; omega)
      · exact members_print layout depth list (by omega)
  termination_by fuel

theorem items_print (layout : Layout) (depth : Nat) (list : List Json)
    {rest : Text} {fuel : Nat}
    (enough : (printItems layout depth list).length ≤ fuel) :
    items fuel (printItems layout depth list ++ rest) = some (list, rest) := by
  match list, fuel with
  | [], 0 | _ :: _, 0 => simp [printItems] at enough
  | [], fuel + 1 =>
      have closed : skip (']' :: rest) = ']' :: rest :=
        skip_cons rest (by decide)
      simp [items, printItems, closed]
  | item :: more, fuel + 1 =>
      simp only [printItems, List.length_cons, List.length_append] at enough
      have inner : value fuel (layout.line (depth + 1) ++
          (print layout (depth + 1) item ++
            (printItems layout depth more ++ rest))) =
          some (item, printItems layout depth more ++ rest) :=
        value_print layout (depth + 1) item
          (by rw [skip_line, skip_print])
          (stops_items layout depth more rest) (by omega)
      have others : items fuel (printItems layout depth more ++ rest) =
          some (more, rest) :=
        items_print layout depth more (by omega)
      have comma (tail : Text) : skip (',' :: tail) = ',' :: tail :=
        skip_cons tail (by decide)
      simp [items, printItems, comma, inner, others]
  termination_by fuel

theorem member_print (layout : Layout) (depth : Nat) (key : Text)
    (content : Json) {text rest : Text} {fuel : Nat}
    (read : skip text = quote key ++
      (layout.colon ++ (print layout (depth + 1) content ++ rest)))
    (stops : Stops rest)
    (enough : (quote key ++ print layout (depth + 1) content).length ≤ fuel) :
    member fuel text = some ((key, content), rest) := by
  match fuel with
  | 0 => simp [quote] at enough
  | fuel + 1 =>
      rw [← List.append_assoc] at read
      apply member_quote layout key read
      intro text same
      have shorter : (print layout (depth + 1) content).length ≤ fuel := by
        simp only [quote, List.length_append, List.length_cons] at enough
        omega
      exact value_print layout (depth + 1) content
        (by rw [same, skip_print]) stops shorter
  termination_by fuel

theorem members_print (layout : Layout) (depth : Nat)
    (list : List (Text × Json)) {rest : Text} {fuel : Nat}
    (enough : (printMembers layout depth list).length ≤ fuel) :
    members fuel (printMembers layout depth list ++ rest) =
      some (list, rest) := by
  match list, fuel with
  | [], 0 | (_, _) :: _, 0 => simp [printMembers] at enough
  | [], fuel + 1 =>
      have closed : skip ('}' :: rest) = '}' :: rest :=
        skip_cons rest (by decide)
      simp [members, printMembers, closed]
  | (key, content) :: more, fuel + 1 =>
      simp only [printMembers, List.length_cons, List.length_append] at enough
      have first : member fuel (layout.line (depth + 1) ++ (quote key ++
          (layout.colon ++ (print layout (depth + 1) content ++
            (printMembers layout depth more ++ rest))))) =
          some ((key, content), printMembers layout depth more ++ rest) :=
        member_print layout depth key content
          (by rw [skip_line, quote, List.cons_append, skip_cons _ (by decide)])
          (stops_members layout depth more rest)
          (by simp only [List.length_append]; omega)
      have others : members fuel (printMembers layout depth more ++ rest) =
          some (more, rest) :=
        members_print layout depth more (by omega)
      have comma (tail : Text) : skip (',' :: tail) = ',' :: tail :=
        skip_cons tail (by decide)
      simp [members, printMembers, comma, first, others]
  termination_by fuel

end

/-- The decoder reads back what the encoder wrote, whatever space follows. -/
theorem parse_print (layout : Layout) (depth : Nat) (json : Json)
    (space : Text) (blank : skip space = []) :
    parse (print layout depth json ++ space) = some json := by
  have stops : Stops space := by
    intro char first
    cases space with
    | nil => simp at first
    | cons head tail =>
        obtain rfl : head = char := by simpa using first
        have solid : isSpace head = true := by
          by_contra other
          simp [skip, other] at blank
        simp only [isSpace, Bool.or_eq_true, decide_eq_true_eq] at solid
        obtain ((rfl | rfl) | rfl) | rfl := solid <;> decide
  have read : value ((print layout depth json ++ space).length + 1)
      (print layout depth json ++ space) = some (json, space) :=
    value_print layout depth json (skip_print layout depth json space) stops
      (by simp only [List.length_append]; omega)
  simp only [parse, read, blank, if_true]

theorem printMembers_last (layout : Layout) (depth : Nat)
    (members : List (Text × Json)) :
    ∃ body, printMembers layout depth members = body ++ ['}'] := by
  induction members with
  | nil => exact ⟨layout.line depth, by simp only [printMembers]⟩
  | cons first members ih =>
      obtain ⟨key, content⟩ := first
      obtain ⟨body, same⟩ := ih
      simp only [printMembers, same]
      exact ⟨',' :: (layout.line (depth + 1) ++ quote key ++ layout.colon ++
        print layout (depth + 1) content ++ body), by simp⟩

/-- An object is written in braces. -/
theorem print_object (layout : Layout) (depth : Nat)
    (members : List (Text × Json)) :
    ∃ body, print layout depth (.obj members) = '{' :: (body ++ ['}']) := by
  cases members with
  | nil => exact ⟨[], by simp [print]⟩
  | cons first members =>
      obtain ⟨key, content⟩ := first
      obtain ⟨body, same⟩ := printMembers_last layout depth members
      simp only [print, same]
      exact ⟨layout.line (depth + 1) ++ quote key ++ layout.colon ++
        print layout (depth + 1) content ++ body, by simp⟩

/-! ## Members of an object -/

/-- The last member with a key. -/
def last : List (Text × Json) → Text → Option Json
  | [], _ => none
  | (name, content) :: members, key =>
      (last members key).or (if name = key then some content else none)

@[simp]
theorem last_nil (key : Text) : last [] key = none := by
  simp [last]

@[simp]
theorem last_cons (name : Text) (content : Json)
    (members : List (Text × Json)) (key : Text) :
    last ((name, content) :: members) key =
      (last members key).or (if name = key then some content else none) := by
  simp [last]

@[simp]
theorem last_append (left right : List (Text × Json)) (key : Text) :
    last (left ++ right) key = (last right key).or (last left key) := by
  induction left with
  | nil => simp
  | cons head left ih =>
      obtain ⟨name, content⟩ := head
      simp [ih, Option.or_assoc]

/-- Members labelled by distinct keys are found by their label. -/
theorem last_map {κ : Type*} {label : κ → Text}
    (distinct : Function.Injective label) (content : κ → Json)
    {keys : List κ} {key : κ} (member : key ∈ keys) :
    last (keys.map fun key => (label key, content key)) (label key) =
      some (content key) := by
  induction keys with
  | nil => simp at member
  | cons head keys ih =>
      rw [List.map_cons, last_cons]
      by_cases later : key ∈ keys
      · simp [ih later]
      · obtain rfl : key = head := by
          simpa [later] using member
        have absent : last (keys.map fun key => (label key, content key))
            (label key) = none := by
          clear ih member
          induction keys with
          | nil => simp
          | cons other keys ih =>
              simp only [List.mem_cons, not_or] at later
              have apart : label other ≠ label key :=
                fun same => later.1 (distinct same).symm
              simp [ih later.2, apart]
        simp [absent]

/-! ## Reading into a value

A decoder reads the members of an object one after another over a value.  The
name of a field is matched without regard to case, an unknown name is refused
and a null leaves a field as it is, or empties a list or an optional one. -/

/-- The case folding of field names. -/
def foldChar (char : Char) : Char :=
  if 'a' ≤ char ∧ char ≤ 'z' then Char.ofNat (char.toNat - 32)
  else if char.toNat = 0x17F then 'S'
  else if char.toNat = 0x212A then 'K'
  else char

def sameName (left right : Text) : Bool :=
  left.map foldChar = right.map foldChar

/-- The field of a list of fields that a name stands for. -/
def named {ι : Type} (fields : List ι) (name : ι → Text) (key : Text) :
    Option ι :=
  fields.find? fun field => sameName (name field) key

section Reading

variable {ι σ α : Type} (ofName : Text → Option ι)
  (set : ι → Json → σ → Option σ)

def readMembers : List (Text × Json) → σ → Option σ
  | [], state => some state
  | (name, content) :: members, state => do
      let field ← ofName name
      let state ← set field content state
      readMembers members state

def readStruct : Json → σ → Option σ
  | .null, state => some state
  | .obj members, state => readMembers ofName set members state
  | _, _ => none

variable {ofName set}

theorem readMembers_cons {name : Text} {field : ι} {content : Json}
    {members : List (Text × Json)} {state next : σ}
    (isName : ofName name = some field)
    (isSet : set field content state = some next) :
    readMembers ofName set ((name, content) :: members) state =
      readMembers ofName set members next := by
  simp [readMembers, isName, isSet]

/-- A member that may be left out. -/
def optional (name : Text) : Option Json → List (Text × Json)
  | none => []
  | some content => [(name, content)]

/-- A member that may be left out sets its field, or the field is empty. -/
theorem readMembers_optional {value : Type} {name : Text} {field : ι}
    (update : value → σ → σ) {json : value → Option Json} {content : value}
    {members : List (Text × Json)} {state : σ}
    (isName : ofName name = some field)
    (absent : json content = none → update content state = state)
    (present : ∀ written, json content = some written →
      set field written state = some (update content state)) :
    readMembers ofName set (optional name (json content) ++ members) state =
      readMembers ofName set members (update content state) := by
  cases written : json content with
  | none => simp [optional, absent written]
  | some written => exact readMembers_cons isName (present _ written)

end Reading

def readText : Json → Text → Option Text
  | .null, old => some old
  | .str text, _ => some text
  | _, _ => none

def readBool : Json → Bool → Option Bool
  | .null, old => some old
  | .bool value, _ => some value
  | _, _ => none

/-- An integer of 64 bits. -/
def readInt : Json → Int → Option Int
  | .null, old => some old
  | .num value, _ => if -2 ^ 63 ≤ value ∧ value < 2 ^ 63 then some value else none
  | _, _ => none

section Collections

variable {α : Type}

def readItems (read : Json → α → Option α) (zero : α) :
    List Json → Option (List α)
  | [] => some []
  | item :: items => do
      let first ← read item zero
      let rest ← readItems read zero items
      some (first :: rest)

/-- A list; none is the list that was never made. -/
def readList (read : Json → α → Option α) (zero : α) :
    Json → Option (List α) → Option (Option (List α))
  | .null, _ => some none
  | .arr items, _ => (readItems read zero items).map some
  | _, _ => none

def readOptional (read : Json → α → Option α) (zero : α) :
    Json → Option α → Option (Option α)
  | .null, _ => some none
  | json, old => (read json (old.getD zero)).map some

def listJson (json : α → Json) : Option (List α) → Json
  | none => .null
  | some items => .arr (items.map json)

theorem readItems_map {read : Json → α → Option α} {zero : α}
    {json : α → Json} {items : List α}
    (reads : ∀ item ∈ items, read (json item) zero = some item) :
    readItems read zero (items.map json) = some items := by
  induction items with
  | nil => rfl
  | cons item items ih =>
      have first := reads item (by simp)
      have rest := ih fun item member => reads item (by simp [member])
      simp [readItems, first, rest]

theorem readList_listJson {read : Json → α → Option α} {zero : α}
    {json : α → Json} {items old : Option (List α)}
    (reads : ∀ list ∈ items, ∀ item ∈ list, read (json item) zero = some item) :
    readList read zero (listJson json items) old = some items := by
  cases items with
  | none => rfl
  | some list => simp [listJson, readList, readItems_map (reads list rfl)]

end Collections

/-! ## Lengths -/

/-- In either layout and at any depth the second value takes `extra` bytes more
than the first. -/
def Longer (extra : Nat) (short long : Json) : Prop :=
  ∀ layout depth, (print layout depth long).bytes =
    (print layout depth short).bytes + extra

theorem bytes_quote (text : Text) :
    (quote text).bytes = Text.bytes (text.flatMap escape) + 2 := by
  have mark : Char.utf8Size '"' = 1 := by decide
  rw [quote, Text.bytes_cons, Text.bytes_append, Text.bytes_cons,
    Text.bytes_nil, mark]
  omega

theorem longer_str {extra : Nat} {short long : Text}
    (longer : Text.bytes (long.flatMap escape) =
      Text.bytes (short.flatMap escape) + extra) :
    Longer extra (.str short) (.str long) := by
  intro layout depth
  rw [print, print, bytes_quote, bytes_quote, longer]
  omega

theorem bytes_printMembers {extra : Nat} {short long : Json}
    (longer : Longer extra short long) (key : Text)
    (before after : List (Text × Json)) (layout : Layout) (depth : Nat) :
    (printMembers layout depth (before ++ (key, long) :: after)).bytes =
      (printMembers layout depth (before ++ (key, short) :: after)).bytes +
        extra := by
  induction before with
  | nil =>
      have value := longer layout (depth + 1)
      simp only [List.nil_append, printMembers, Text.bytes_cons,
        Text.bytes_append, value]
      omega
  | cons first before ih =>
      obtain ⟨name, content⟩ := first
      simp only [List.cons_append, printMembers, Text.bytes_cons,
        Text.bytes_append, ih]
      omega

theorem bytes_printItems {extra : Nat} {short long : Json}
    (longer : Longer extra short long) (before after : List Json)
    (layout : Layout) (depth : Nat) :
    (printItems layout depth (before ++ long :: after)).bytes =
      (printItems layout depth (before ++ short :: after)).bytes + extra := by
  induction before with
  | nil =>
      have item := longer layout (depth + 1)
      simp only [List.nil_append, printItems, Text.bytes_cons,
        Text.bytes_append, item]
      omega
  | cons first before ih =>
      simp only [List.cons_append, printItems, Text.bytes_cons,
        Text.bytes_append, ih]
      omega

/-- A member that is longer makes its object longer. -/
theorem Longer.member {extra : Nat} {short long : Json}
    (longer : Longer extra short long) (key : Text)
    (before after : List (Text × Json)) :
    Longer extra (.obj (before ++ (key, short) :: after))
      (.obj (before ++ (key, long) :: after)) := by
  intro layout depth
  cases before with
  | nil =>
      have value := longer layout (depth + 1)
      simp only [List.nil_append, print, Text.bytes_cons, Text.bytes_append,
        value]
      omega
  | cons first before =>
      obtain ⟨name, content⟩ := first
      have members := bytes_printMembers longer key before after layout depth
      simp only [List.cons_append, print, Text.bytes_cons, Text.bytes_append,
        members]
      omega

/-- An item that is longer makes its array longer. -/
theorem Longer.item {extra : Nat} {short long : Json}
    (longer : Longer extra short long) (before after : List Json) :
    Longer extra (.arr (before ++ short :: after))
      (.arr (before ++ long :: after)) := by
  intro layout depth
  cases before with
  | nil =>
      have item := longer layout (depth + 1)
      simp only [List.nil_append, print, Text.bytes_cons, Text.bytes_append,
        item]
      omega
  | cons first before =>
      have items := bytes_printItems longer before after layout depth
      simp only [List.cons_append, print, Text.bytes_cons, Text.bytes_append,
        items]
      omega

/-- The bytes of items: each takes its own with those of its line and comma. -/
theorem bytes_printItems_sum (layout : Layout) (depth : Nat)
    (items : List Json) :
    (printItems layout depth items).bytes =
      (items.map fun item =>
        1 + Text.bytes (layout.line (depth + 1)) +
          (print layout (depth + 1) item).bytes).sum +
        (Text.bytes (layout.line depth) + 1) := by
  have comma : Char.utf8Size ',' = 1 := by decide
  have bracket : Char.utf8Size ']' = 1 := by decide
  induction items with
  | nil =>
      simp only [printItems, Text.bytes_append, Text.bytes_cons,
        Text.bytes_nil, bracket, List.map_nil, List.sum_nil]
      omega
  | cons item items ih =>
      simp only [printItems, Text.bytes_append, Text.bytes_cons, comma, ih,
        List.map_cons, List.sum_cons]
      omega

/-- An array with fewer items takes no more bytes. -/
theorem bytes_arr_le (layout : Layout) (depth : Nat) {few many : List Json}
    (fewer : few.Subperm many) :
    (print layout depth (.arr few)).bytes ≤
      (print layout depth (.arr many)).bytes := by
  have opening : Char.utf8Size '[' = 1 := by decide
  have closing : Char.utf8Size ']' = 1 := by decide
  have comma : Char.utf8Size ',' = 1 := by decide
  have some (item : Json) (items : List Json) :
      (print layout depth (.arr (item :: items))).bytes =
        (printItems layout depth (item :: items)).bytes := by
    simp only [print, printItems, Text.bytes_cons, opening, comma]
  cases many with
  | nil =>
      rw [List.subperm_nil.mp fewer]
  | cons last many =>
      rw [some, bytes_printItems_sum]
      cases few with
      | nil =>
          simp only [print, Text.bytes_cons, Text.bytes_nil, opening, closing,
            List.map_cons, List.sum_cons]
          omega
      | cons item few =>
          rw [some, bytes_printItems_sum]
          obtain ⟨between, same, within⟩ := fewer
          have sums := (within.map fun item =>
            1 + Text.bytes (layout.line (depth + 1)) +
              (print layout (depth + 1) item).bytes).sum_le_sum
                (fun _ _ => Nat.zero_le _)
          rw [← (same.map _).sum_eq]
          exact Nat.add_le_add_right sums _

end Json

end Veil.Lib
