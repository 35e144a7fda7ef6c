import Mathlib.Data.List.Induction
import Mathlib.Data.List.TakeWhile
import Veil.Lib.Address

/-!
# Writing network addresses

A host and a port are joined into one text, and an IP address is written in
the one spelling that the networking library of Go gives it.  Both are read
back by the functions that take such texts apart.
-/

namespace Veil.Lib

/-! ## Hosts and ports -/

/-- `net.JoinHostPort` -/
def joinHostPort (host port : Text) : Text :=
  if ':' ∈ host then '[' :: (host ++ ']' :: ':' :: port)
  else host ++ ':' :: port

theorem splitLastColon_append {before port : Text} (last : ':' ∉ port) :
    splitLastColon (before ++ ':' :: port) = some (before, port) := by
  have others : ∀ char ∈ port.reverse, (char ≠ ':' : Bool) = true := by
    intro char member
    rw [decide_eq_true_eq]
    rintro rfl
    exact last (List.mem_reverse.mp member)
  have reversed : (before ++ ':' :: port).reverse =
      port.reverse ++ ':' :: before.reverse := by
    simp
  unfold splitLastColon
  rw [reversed, List.dropWhile_append_of_pos others,
    List.takeWhile_append_of_pos others]
  simp

/-- No character of a text is a bracket. -/
def Unbracketed (text : Text) : Prop :=
  '[' ∉ text ∧ ']' ∉ text

instance (text : Text) : Decidable (Unbracketed text) :=
  inferInstanceAs (Decidable (_ ∧ _))

/-- What is joined is taken apart again, unless there are brackets in it. -/
theorem splitHostPort_joinHostPort {host port : Text}
    (plain : Unbracketed host) (number : Unbracketed port)
    (last : ':' ∉ port) :
    splitHostPort (joinHostPort host port) = some (host, port) := by
  unfold joinHostPort
  split_ifs with colons
  · have shape : '[' :: (host ++ ']' :: ':' :: port) =
        ('[' :: (host ++ [']'])) ++ ':' :: port := by
      simp
    have others : ∀ char ∈ host, (char ≠ ']' : Bool) = true := by
      intro char member
      rw [decide_eq_true_eq]
      rintro rfl
      exact plain.2 member
    have inner : (host ++ ']' :: ':' :: port).takeWhile (· ≠ ']') = host := by
      rw [List.takeWhile_append_of_pos others]
      simp
    have later : '[' ∉ host ++ ']' :: ':' :: port := by
      simp [plain.1, number.1]
    have opening : ('[' :: (host ++ ']' :: ':' :: port)).head? = some '[' := rfl
    unfold splitHostPort
    rw [opening, List.tail_cons, inner, shape, splitLastColon_append last]
    simp only [Option.bind_eq_bind, Option.bind_some, if_true]
    rw [if_pos ⟨trivial, later, number.2⟩]
  · have opening : (host ++ ':' :: port).head? ≠ some '[' := by
      cases host with
      | nil => simp
      | cons first rest =>
          have other : first ≠ '[' := by
            rintro rfl
            exact plain.1 (by simp)
          simpa using other
    have clear : ¬ (':' ∈ host ∨ '[' ∈ host ++ ':' :: port ∨
        ']' ∈ host ++ ':' :: port) := by
      simp [colons, plain.1, plain.2, number.1, number.2]
    unfold splitHostPort
    rw [splitLastColon_append last]
    simp only [Option.bind_eq_bind, Option.bind_some]
    rw [if_neg opening, if_neg clear]

/-! ## Decimal numbers -/

/-- A natural number in decimal. -/
def decimalText (number : Nat) : Text :=
  Nat.toDigits 10 number

theorem isDigit_decimalText {number : Nat} {char : Char}
    (member : char ∈ decimalText number) : char.isDigit = true :=
  Nat.isDigit_of_mem_toDigits (by decide) (by decide) member

/-- A character that is no digit does not stand in a number. -/
theorem not_mem_decimalText (number : Nat) {char : Char}
    (other : char.isDigit = false) : char ∉ decimalText number := by
  intro member
  rw [isDigit_decimalText member] at other
  exact Bool.noConfusion other

theorem decimal_decimalText (number : Nat) :
    decimal (decimalText number) = some number := by
  have digits : (decimalText number).all Char.isDigit = true := by
    rw [List.all_eq_true]
    exact fun char member => isDigit_decimalText member
  have some_ : decimalText number ≠ [] := Nat.toDigits_ne_nil
  unfold decimal
  rw [if_pos ⟨some_, digits⟩]
  exact congrArg some Nat.ofDigitChars_ten_toDigits

theorem atoi_decimalText {number : Nat} (small : number < 2 ^ 63) :
    atoi (decimalText number) = some (number : Int) := by
  have read := decimal_decimalText number
  have plus := @not_mem_decimalText number '+' (by decide)
  have minus := @not_mem_decimalText number '-' (by decide)
  generalize decimalText number = text at read plus minus
  have bounds : -2 ^ 63 ≤ (number : Int) ∧ (number : Int) < 2 ^ 63 := by
    constructor
    · exact (neg_nonpos.mpr (by positivity)).trans (Int.natCast_nonneg number)
    · exact_mod_cast small
  unfold atoi
  extract_lets join
  have bounded : join number = some (number : Int) := if_pos bounds
  split
  next => simp at plus
  next => simp at minus
  next =>
    refine Option.bind_eq_some_iff.mpr ⟨number, ?_, bounded⟩
    rw [read]
    rfl

theorem unbracketed_decimalText (number : Nat) :
    Unbracketed (decimalText number) :=
  ⟨not_mem_decimalText number (by decide),
    not_mem_decimalText number (by decide)⟩

/-! ## IPv4 addresses -/

/-- The dotted spelling of four octets. -/
def dotted (octets : List Nat) : Text :=
  ['.'].intercalate (octets.map decimalText)

theorem octet_decimalText {value : Nat} (small : value < 256) :
    octet (decimalText value) = some value := by
  have table : ∀ value : Fin 256,
      octet (decimalText value.val) = some value.val := by
    decide +kernel
  exact table ⟨value, small⟩

theorem mapM_octet {octets : List Nat} (small : ∀ octet ∈ octets, octet < 256) :
    (octets.map decimalText).mapM octet = some octets := by
  induction octets with
  | nil => rfl
  | cons first rest ih =>
      have later := ih fun octet member => small octet (by simp [member])
      simp [octet_decimalText (small first (by simp)), later]

theorem parseIPv4_dotted {octets : List Nat} (four : octets.length = 4)
    (small : ∀ octet ∈ octets, octet < 256) :
    parseIPv4 (dotted octets) = some octets := by
  have parts : (dotted octets).splitOn '.' = octets.map decimalText := by
    apply List.splitOn_intercalate
    · intro part member
      obtain ⟨octet, _, rfl⟩ := List.mem_map.mp member
      exact not_mem_decimalText octet (by decide)
    · intro none_
      rw [List.map_eq_nil_iff.mp none_] at four
      exact absurd four (by decide)
  unfold parseIPv4
  rw [parts, mapM_octet small]
  simp [four]

/-- The octets of a dotted text, as an address of sixteen bytes. -/
theorem parseIP_dotted {octets : List Nat} (four : octets.length = 4)
    (small : ∀ octet ∈ octets, octet < 256) :
    parseIP (dotted octets) = some (mapped octets) := by
  have read := parseIPv4_dotted four small
  obtain ⟨first, rest, rfl⟩ : ∃ first rest, octets = first :: rest :=
    List.exists_cons_of_length_eq_add_one four
  obtain ⟨second, rest, rfl⟩ : ∃ second rest', rest = second :: rest' :=
    List.exists_cons_of_length_eq_add_one (by simpa using four)
  have digits : ∀ char ∈ decimalText first,
      (char = '.' || char = ':' || char = '%') = false := by
    intro char member
    have digit := isDigit_decimalText member
    simp only [Bool.or_eq_false_iff, decide_eq_false_iff_not]
    refine ⟨⟨?_, ?_⟩, ?_⟩ <;> rintro rfl <;> exact absurd digit (by decide)
  have found : (dotted (first :: second :: rest)).find?
      (fun char => char = '.' || char = ':' || char = '%') = some '.' := by
    have shape : dotted (first :: second :: rest) =
        decimalText first ++ '.' :: dotted (second :: rest) := by
      simp [dotted, List.intercalate]
    rw [shape, List.find?_append,
      List.find?_eq_none.mpr fun char member => by simp [digits char member]]
    rfl
  unfold parseIP
  rw [found, read]
  rfl

/-! ## IPv6 addresses -/

/-- A field of an IPv6 address in lower case, without leading zeros. -/
def appendHex (value : Nat) : Text :=
  (if 4096 ≤ value then [Json.hexDigit (value / 4096)] else []) ++
    (if 256 ≤ value then [Json.hexDigit (value / 256 % 16)] else []) ++
    (if 16 ≤ value then [Json.hexDigit (value / 16 % 16)] else []) ++
    [Json.hexDigit (value % 16)]

theorem isHex_hexDigit {digit : Nat} (small : digit < 16) :
    isHex (Json.hexDigit digit) = true := by
  unfold isHex
  rw [Json.hexValue_hexDigit digit small]
  rfl

theorem isHex_appendHex {value : Nat} (small : value < 65536) :
    ∀ char ∈ appendHex value, isHex char = true := by
  have optional (shown : Prop) [Decidable shown] {digit : Nat}
      (fits : digit < 16) :
      ∀ char ∈ (if shown then [Json.hexDigit digit] else []),
        isHex char = true := by
    split_ifs
    · simpa using isHex_hexDigit fits
    · simp
  have below (number : Nat) : number % 16 < 16 := Nat.mod_lt _ (by decide)
  unfold appendHex
  simp only [List.forall_mem_append]
  refine ⟨⟨⟨optional _ (by omega), optional _ (below _)⟩,
    optional _ (below _)⟩, ?_⟩
  simpa using isHex_hexDigit (below value)

theorem length_appendHex (value : Nat) :
    0 < (appendHex value).length ∧ (appendHex value).length ≤ 4 := by
  unfold appendHex
  simp only [List.length_append, List.length_singleton]
  split_ifs <;> simp

theorem hexNumber_appendHex {value : Nat} (small : value < 65536) :
    hexNumber (appendHex value) = value := by
  have top := Json.hexValue_hexDigit (value / 4096) (by omega)
  have second := Json.hexValue_hexDigit (value / 256 % 16)
    (Nat.mod_lt _ (by decide))
  have third := Json.hexValue_hexDigit (value / 16 % 16)
    (Nat.mod_lt _ (by decide))
  have last := Json.hexValue_hexDigit (value % 16) (Nat.mod_lt _ (by decide))
  unfold hexNumber appendHex
  split_ifs <;>
    simp only [List.nil_append, List.cons_append, List.foldl_cons,
      List.foldl_nil, top, second, third, last, Option.getD_some] <;>
    omega

/-- What a field is cut off by: no hexadecimal digit follows it. -/
def Ends (rest : Text) : Prop :=
  ∀ char ∈ rest.head?, isHex char = false

/-- A field that was written is taken off the text it begins. -/
theorem takeWhile_appendHex {value : Nat} (small : value < 65536) {rest : Text}
    (ends : Ends rest) :
    (appendHex value ++ rest).takeWhile isHex = appendHex value ∧
      (appendHex value ++ rest).dropWhile isHex = rest := by
  have digits := isHex_appendHex small
  have tail : rest.takeWhile isHex = [] ∧ rest.dropWhile isHex = rest := by
    cases rest with
    | nil => simp
    | cons char rest =>
        have other : isHex char = false := ends char (by simp)
        simp [other]
  constructor
  · rw [List.takeWhile_append_of_pos digits, tail.1, List.append_nil]
  · rw [List.dropWhile_append_of_pos digits, tail.2]

/-- The fields of an address with colons between them. -/
def colonHex (groups : List Nat) : Text :=
  [':'].intercalate (groups.map appendHex)

theorem colonHex_singleton (group : Nat) : colonHex [group] = appendHex group := by
  simp [colonHex]

theorem colonHex_cons_cons (first second : Nat) (rest : List Nat) :
    colonHex (first :: second :: rest) =
      appendHex first ++ ':' :: colonHex (second :: rest) := by
  simp [colonHex, List.intercalate]

theorem colonHex_head {first : Nat} (small : first < 65536) (rest : List Nat) :
    ∃ char tail, colonHex (first :: rest) = char :: tail ∧
      isHex char = true := by
  obtain ⟨char, tail, shape⟩ : ∃ char tail, appendHex first = char :: tail :=
    List.exists_cons_of_length_pos (length_appendHex first).1
  have hex := isHex_appendHex small char (by simp [shape])
  cases rest with
  | nil =>
      rw [colonHex_singleton, shape]
      exact ⟨char, tail, rfl, hex⟩
  | cons second rest =>
      rw [colonHex_cons_cons, shape]
      exact ⟨char, _, rfl, hex⟩

/-- The bytes of the fields of an address. -/
def bytesOf (groups : List Nat) : List Nat :=
  groups.flatMap fun group => [group / 256, group % 256]

theorem bytesOf_append (left right : List Nat) :
    bytesOf (left ++ right) = bytesOf left ++ bytesOf right :=
  List.flatMap_append

theorem length_bytesOf (groups : List Nat) :
    (bytesOf groups).length = 2 * groups.length := by
  induction groups with
  | nil => rfl
  | cons first rest ih =>
      simp only [bytesOf, List.flatMap_cons, List.length_append] at ih ⊢
      rw [ih]
      simp only [List.length_cons, List.length_nil]
      omega

/-! ### One field -/

section Fields

variable {left value : Nat} {bytes : List Nat} {ellipsis : Option Nat}

theorem fields_last (small : value < 65536) :
    fields (left + 1) (appendHex value) bytes ellipsis =
      some (bytes ++ bytesOf [value], ellipsis) := by
  obtain ⟨taken, dropped⟩ := @takeWhile_appendHex _ small [] (by simp [Ends])
  rw [List.append_nil] at taken dropped
  have length := length_appendHex value
  rw [fields]
  simp only [taken, dropped, hexNumber_appendHex small]
  rw [if_neg (by omega)]
  rfl

theorem fields_colon (small : value < 65536) {char : Char} {more : Text}
    (hex : isHex char = true) :
    fields (left + 1) (appendHex value ++ ':' :: char :: more) bytes ellipsis =
      fields left (char :: more) (bytes ++ bytesOf [value]) ellipsis := by
  obtain ⟨taken, dropped⟩ :=
    @takeWhile_appendHex _ small (':' :: char :: more) (by simp [Ends]; decide)
  have length := length_appendHex value
  have other : char ≠ ':' := by
    rintro rfl
    exact absurd hex (by decide)
  rw [fields]
  simp only [taken, dropped, hexNumber_appendHex small]
  rw [if_neg (by omega)]
  split
  next shape => simp at shape
  next shape => simp at shape
  next shape => simp at shape
  next shape =>
    simp only [List.cons.injEq] at shape
    exact absurd shape.2.1 other
  next shape =>
    obtain rfl := (List.cons.inj shape).2
    rfl
  next unmatched => exact absurd rfl (unmatched (char :: more))

theorem fields_ellipsis (small : value < 65536) {more : Text} :
    fields (left + 1) (appendHex value ++ ':' :: ':' :: more) bytes none =
      if more = [] then
        some (bytes ++ bytesOf [value], some (bytes.length + 2))
      else
        fields left more (bytes ++ bytesOf [value]) (some (bytes.length + 2)) := by
  obtain ⟨taken, dropped⟩ :=
    @takeWhile_appendHex _ small (':' :: ':' :: more) (by simp [Ends]; decide)
  have length := length_appendHex value
  rw [fields]
  simp only [taken, dropped, hexNumber_appendHex small]
  rw [if_neg (by omega)]
  simp [bytesOf]

/-! ### Runs of fields -/

/-- All fields but the last are read one after the other. -/
theorem fields_front {groups : List Nat} (small : ∀ group ∈ groups, group < 65536)
    (valueSmall : value < 65536) (rest : Text) :
    fields (left + groups.length) (colonHex (groups ++ [value]) ++ rest) bytes
        ellipsis =
      fields left (appendHex value ++ rest) (bytes ++ bytesOf groups)
        ellipsis := by
  induction groups generalizing bytes with
  | nil => simp [colonHex_singleton, bytesOf]
  | cons first groups ih =>
      have later := @ih (bytes ++ bytesOf [first])
        fun group member => small group (by simp [member])
      obtain ⟨second, others, shape⟩ :
          ∃ second others, groups ++ [value] = second :: others :=
        List.exists_cons_of_length_pos (by simp)
      have secondSmall : second < 65536 := by
        have member : second ∈ groups ++ [value] := by simp [shape]
        rcases List.mem_append.mp member with listed | last
        · exact small second (by simp [listed])
        · rw [List.mem_singleton.mp last]
          exact valueSmall
      obtain ⟨char, tail, head, hex⟩ := colonHex_head secondSmall others
      rw [shape, head, List.cons_append] at later
      rw [List.cons_append, shape, colonHex_cons_cons, head, List.append_assoc,
        List.length_cons, ← Nat.add_assoc, List.cons_append, List.cons_append,
        fields_colon (small first (by simp)) hex, later, List.append_assoc,
        ← bytesOf_append]
      rfl

/-- Fields without an ellipsis among them are read as they are. -/
theorem fields_colonHex {groups : List Nat} (some_ : groups ≠ [])
    (small : ∀ group ∈ groups, group < 65536) (enough : groups.length ≤ left) :
    fields left (colonHex groups) bytes ellipsis =
      some (bytes ++ bytesOf groups, ellipsis) := by
  obtain ⟨front, value, rfl⟩ := (List.eq_nil_or_concat' groups).resolve_left some_
  rw [List.length_append, List.length_singleton] at enough
  obtain ⟨more, rfl⟩ : ∃ more, left = more + 1 + front.length :=
    ⟨left - (front.length + 1), by omega⟩
  have valueSmall := small value (by simp)
  have frontSmall : ∀ group ∈ front, group < 65536 :=
    fun group member => small group (by simp [member])
  have run := @fields_front (more + 1) _ bytes ellipsis _
    frontSmall valueSmall []
  rw [List.append_nil, List.append_nil, fields_last valueSmall] at run
  rw [run, List.append_assoc, ← bytesOf_append]

/-- Fields with an ellipsis between them. -/
theorem fields_colonHex_ellipsis {before after : List Nat} (some_ : before ≠ [])
    (beforeSmall : ∀ group ∈ before, group < 65536)
    (afterSmall : ∀ group ∈ after, group < 65536)
    (enough : before.length + after.length ≤ left) :
    fields left (colonHex before ++ ':' :: ':' :: colonHex after) bytes none =
      some (bytes ++ bytesOf before ++ bytesOf after,
        some (bytes.length + 2 * before.length)) := by
  obtain ⟨front, value, rfl⟩ := (List.eq_nil_or_concat' before).resolve_left some_
  rw [List.length_append, List.length_singleton] at enough
  obtain ⟨more, rfl⟩ : ∃ more, left = more + 1 + front.length :=
    ⟨left - (front.length + 1), by omega⟩
  have valueSmall := beforeSmall value (by simp)
  have frontSmall : ∀ group ∈ front, group < 65536 :=
    fun group member => beforeSmall group (by simp [member])
  rw [fields_front frontSmall valueSmall, fields_ellipsis valueSmall]
  have joined : bytes ++ bytesOf front ++ bytesOf [value] =
      bytes ++ bytesOf (front ++ [value]) := by
    rw [List.append_assoc, ← bytesOf_append]
  have place : (bytes ++ bytesOf front).length + 2 =
      bytes.length + 2 * (front ++ [value]).length := by
    simp only [List.length_append, length_bytesOf, List.length_singleton]
    omega
  rw [joined, place]
  cases after with
  | nil => simp [colonHex, bytesOf]
  | cons first rest =>
      obtain ⟨char, tail, head, _⟩ :=
        colonHex_head (afterSmall first (by simp)) rest
      have shown : colonHex (first :: rest) ≠ [] := by
        rw [head]
        exact List.cons_ne_nil char tail
      rw [if_neg shown]
      exact fields_colonHex (List.cons_ne_nil first rest) afterSmall (by omega)

end Fields

/-! ### The longest run of zeros -/

/-- A part of the fields, from its start to its end, holds zeros only. -/
def ZeroRun (groups : List Nat) (start stop : Nat) : Prop :=
  start ≤ stop ∧
    groups = groups.take start ++ List.replicate (stop - start) 0 ++
      groups.drop stop

/-- The number of zeros from a position on. -/
def zerosAt (groups : List Nat) (start : Nat) : Nat :=
  ((groups.drop start).takeWhile (· = 0)).length

theorem zeroRun_zerosAt (groups : List Nat) (start : Nat) :
    ZeroRun groups start (start + zerosAt groups start) := by
  have zeros : (groups.drop start).takeWhile (· = 0) =
      List.replicate (zerosAt groups start) 0 := by
    rw [List.eq_replicate_iff]
    refine ⟨rfl, fun group member => ?_⟩
    simpa using List.mem_takeWhile_imp member
  have rest : (groups.drop start).dropWhile (· = 0) =
      groups.drop (start + zerosAt groups start) := by
    have split := List.takeWhile_append_dropWhile (p := (· = 0))
      (l := groups.drop start)
    calc (groups.drop start).dropWhile (· = 0)
        = ((groups.drop start).takeWhile (· = 0) ++
            (groups.drop start).dropWhile (· = 0)).drop
              (zerosAt groups start) := (List.drop_left' rfl).symm
      _ = groups.drop (start + zerosAt groups start) := by
          rw [split, List.drop_drop]
  refine ⟨Nat.le_add_right _ _, ?_⟩
  rw [Nat.add_sub_cancel_left, ← zeros, ← rest, List.append_assoc,
    List.takeWhile_append_dropWhile, List.take_append_drop]

/-- The first of the longest runs of at least two zeros. -/
def longestZeros (groups : List Nat) : Option (Nat × Nat) :=
  (List.range groups.length).foldl (fun best start =>
    let zeros := zerosAt groups start
    if 2 ≤ zeros ∧ (best.map fun run => run.2 - run.1).getD 0 < zeros then
      some (start, start + zeros)
    else best) none

theorem zeroRun_longestZeros {groups : List Nat} {start stop : Nat}
    (found : longestZeros groups = some (start, stop)) :
    start + 2 ≤ stop ∧ ZeroRun groups start stop := by
  have each : ∀ run ∈ longestZeros groups,
      run.1 + 2 ≤ run.2 ∧ ZeroRun groups run.1 run.2 := by
    unfold longestZeros
    apply List.foldlRecOn
      (motive := fun best : Option (Nat × Nat) =>
        ∀ run ∈ best, run.1 + 2 ≤ run.2 ∧ ZeroRun groups run.1 run.2)
    · simp
    · intro best known position _ run chosen
      dsimp only at chosen
      split_ifs at chosen with longer
      · obtain rfl := Option.mem_some_iff.mp chosen
        exact ⟨Nat.add_le_add_left longer.1 position,
          zeroRun_zerosAt groups position⟩
      · exact known run chosen
  exact each (start, stop) found

/-! ### Whole addresses -/

/-- The spelling of an IPv6 address: its longest run of zeros is left out. -/
def ipv6Text (groups : List Nat) : Text :=
  match longestZeros groups with
  | none => colonHex groups
  | some (start, stop) =>
      colonHex (groups.take start) ++ ':' :: ':' :: colonHex (groups.drop stop)

theorem mem_colonHex {groups : List Nat}
    (small : ∀ group ∈ groups, group < 65536) {char : Char}
    (member : char ∈ colonHex groups) : isHex char = true ∨ char = ':' := by
  induction groups with
  | nil => simp [colonHex] at member
  | cons first rest ih =>
      have later := ih fun group listed => small group (by simp [listed])
      have digits := isHex_appendHex (small first (by simp)) char
      cases rest with
      | nil =>
          rw [colonHex_singleton] at member
          exact .inl (digits member)
      | cons second rest =>
          rw [colonHex_cons_cons, List.mem_append, List.mem_cons] at member
          rcases member with digit | colon | further
          · exact .inl (digits digit)
          · exact .inr colon
          · exact later further

theorem mem_ipv6Text {groups : List Nat}
    (small : ∀ group ∈ groups, group < 65536) {char : Char}
    (member : char ∈ ipv6Text groups) : isHex char = true ∨ char = ':' := by
  unfold ipv6Text at member
  split at member
  next => exact mem_colonHex small member
  next start stop _ =>
    rw [List.mem_append, List.mem_cons, List.mem_cons] at member
    rcases member with before | colon | colon | after
    · exact mem_colonHex (fun group taken => small group (List.mem_of_mem_take taken)) before
    · exact .inr colon
    · exact .inr colon
    · exact mem_colonHex (fun group left => small group (List.mem_of_mem_drop left)) after

theorem colon_mem_ipv6Text {groups : List Nat} (eight : groups.length = 8) :
    ':' ∈ ipv6Text groups := by
  unfold ipv6Text
  split
  next =>
    obtain ⟨first, rest, rfl⟩ : ∃ first rest, groups = first :: rest :=
      List.exists_cons_of_length_eq_add_one eight
    obtain ⟨second, rest, rfl⟩ : ∃ second rest', rest = second :: rest' :=
      List.exists_cons_of_length_eq_add_one (by simpa using eight)
    simp [colonHex_cons_cons]
  next => simp

theorem expand_append {before after : List Nat}
    (short : before.length + after.length < 16) :
    expand (before ++ after, some before.length) =
      some (before ++ List.replicate (16 - (before.length + after.length)) 0 ++
        after) := by
  rw [← List.length_append] at short ⊢
  rw [expand, if_pos short, List.take_left' rfl, List.drop_left' rfl]

theorem bytesOf_replicate (count : Nat) :
    bytesOf (List.replicate count 0) = List.replicate (2 * count) 0 := by
  induction count with
  | zero => rfl
  | succ count ih =>
      have both : bytesOf (0 :: List.replicate count 0) =
          0 :: 0 :: bytesOf (List.replicate count 0) :=
        rfl
      rw [List.replicate_succ, both, ih]
      exact (List.replicate_succ (n := 2 * count + 1)).symm

/-- A text with an ellipsis is read as the fields with zeros between them. -/
theorem parseIPv6_ellipsis {before after : List Nat}
    (beforeSmall : ∀ group ∈ before, group < 65536)
    (afterSmall : ∀ group ∈ after, group < 65536)
    (short : before.length + after.length < 8)
    (zone : '%' ∉ colonHex before ++ ':' :: ':' :: colonHex after) :
    parseIPv6 (colonHex before ++ ':' :: ':' :: colonHex after) =
      some (bytesOf (before ++
        List.replicate (8 - (before.length + after.length)) 0 ++ after)) := by
  have bytes : bytesOf (before ++
      List.replicate (8 - (before.length + after.length)) 0 ++ after) =
        bytesOf before ++ List.replicate
          (16 - ((bytesOf before).length + (bytesOf after).length)) 0 ++
            bytesOf after := by
    rw [bytesOf_append, bytesOf_append, bytesOf_replicate, length_bytesOf,
      length_bytesOf]
    congr 3
    omega
  have fits : (bytesOf before).length + (bytesOf after).length < 16 := by
    rw [length_bytesOf, length_bytesOf]
    omega
  have expanded := expand_append fits
  rw [← bytes, length_bytesOf] at expanded
  unfold parseIPv6
  rw [if_neg zone]
  cases before with
  | nil =>
      cases after with
      | nil => rfl
      | cons first rest =>
          have read := @fields_colonHex 8 [] (some 0) _
            (List.cons_ne_nil first rest) afterSmall
            (by simpa using short.le)
          obtain ⟨char, tail, head, _⟩ :=
            colonHex_head (afterSmall first (by simp)) rest
          rw [head] at read ⊢
          show (fields 8 (char :: tail) [] (some 0)).bind expand = _
          rw [read]
          exact expanded
  | cons first rest =>
      have read := @fields_colonHex_ellipsis 8 [] _ _
        (List.cons_ne_nil first rest) beforeSmall afterSmall short.le
      obtain ⟨char, tail, head, hex⟩ :=
        colonHex_head (beforeSmall first (by simp)) rest
      have other : char ≠ ':' := by
        rintro rfl
        exact absurd hex (by decide)
      rw [head, List.cons_append] at read ⊢
      split
      next shape => exact absurd (List.cons.inj shape).1 other
      next shape => exact absurd (List.cons.inj shape).1 other
      next =>
        rw [read]
        simpa using expanded

/-- The text of an IPv6 address is read back as its bytes. -/
theorem parseIPv6_ipv6Text {groups : List Nat} (eight : groups.length = 8)
    (small : ∀ group ∈ groups, group < 65536) :
    parseIPv6 (ipv6Text groups) = some (bytesOf groups) := by
  have zone : '%' ∉ ipv6Text groups := by
    intro member
    rcases mem_ipv6Text small member with hex | colon
    · exact absurd hex (by decide)
    · exact absurd colon (by decide)
  unfold ipv6Text at zone ⊢
  cases run : longestZeros groups with
  | none =>
      rw [run] at zone
      obtain ⟨first, rest, rfl⟩ : ∃ first rest, groups = first :: rest :=
        List.exists_cons_of_length_eq_add_one eight
      have read := @fields_colonHex 8 [] none _
        (List.cons_ne_nil first rest) small eight.le
      obtain ⟨char, tail, head, hex⟩ := colonHex_head (small first (by simp)) rest
      have other : char ≠ ':' := by
        rintro rfl
        exact absurd hex (by decide)
      have bytes := length_bytesOf (first :: rest)
      rw [eight] at bytes
      unfold parseIPv6
      rw [if_neg zone]
      dsimp only
      rw [head] at read ⊢
      split
      next shape => exact absurd (List.cons.inj shape).1 other
      next shape => exact absurd (List.cons.inj shape).1 other
      next =>
        rw [read]
        simp [expand, bytes]
  | some found =>
      obtain ⟨start, stop⟩ := found
      rw [run] at zone
      obtain ⟨long, ordered, shape⟩ := zeroRun_longestZeros run
      have within : stop ≤ 8 := by
        have lengths := congrArg List.length shape
        simp only [List.length_append, List.length_take, List.length_replicate,
          List.length_drop, eight] at lengths
        omega
      have count : 8 - ((groups.take start).length +
          (groups.drop stop).length) = stop - start := by
        rw [List.length_take, List.length_drop, eight]
        omega
      have read := parseIPv6_ellipsis
        (fun group taken => small group (List.mem_of_mem_take taken))
        (fun group left => small group (List.mem_of_mem_drop left))
        (by rw [List.length_take, List.length_drop, eight]; omega) zone
      rw [count, ← shape] at read
      exact read

/-- Bytes two at a time, as the fields of an address. -/
def groupsOf : List Nat → List Nat
  | high :: low :: rest => (256 * high + low) :: groupsOf rest
  | _ => []

theorem groupsOf_spec {count : Nat} {bytes : List Nat}
    (even : bytes.length = 2 * count) (small : ∀ byte ∈ bytes, byte < 256) :
    (groupsOf bytes).length = count ∧
      (∀ group ∈ groupsOf bytes, group < 65536) ∧
      bytesOf (groupsOf bytes) = bytes := by
  induction count generalizing bytes with
  | zero =>
      obtain rfl := List.eq_nil_of_length_eq_zero even
      exact ⟨rfl, by simp [groupsOf], rfl⟩
  | succ count ih =>
      obtain ⟨high, rest, rfl⟩ : ∃ high rest, bytes = high :: rest :=
        List.exists_cons_of_length_eq_add_one even
      obtain ⟨low, rest, rfl⟩ : ∃ low rest', rest = low :: rest' :=
        List.exists_cons_of_length_eq_add_one
          (by simpa [Nat.mul_succ] using even)
      obtain ⟨length, groups, bytes⟩ := ih
        (by simpa [Nat.mul_succ] using even)
        fun byte member => small byte (by simp [member])
      have highSmall := small high (by simp)
      have lowSmall := small low (by simp)
      have upper : (256 * high + low) / 256 = high := by omega
      have lower : (256 * high + low) % 256 = low := by omega
      refine ⟨by rw [groupsOf, List.length_cons, length], ?_, ?_⟩
      · rw [groupsOf, List.forall_mem_cons]
        exact ⟨by omega, groups⟩
      · rw [bytesOf] at bytes ⊢
        rw [groupsOf, List.flatMap_cons, bytes, upper, lower]
        rfl

theorem groupsOf_bytesOf (groups : List Nat) :
    groupsOf (bytesOf groups) = groups := by
  induction groups with
  | nil => rfl
  | cons first rest ih =>
      have whole : 256 * (first / 256) + first % 256 = first :=
        Nat.div_add_mod first 256
      have both : bytesOf (first :: rest) =
          first / 256 :: first % 256 :: bytesOf rest :=
        rfl
      rw [both, groupsOf, ih, whole]

theorem bytesOf_small {groups : List Nat}
    (small : ∀ group ∈ groups, group < 65536) :
    ∀ byte ∈ bytesOf groups, byte < 256 := by
  intro byte member
  obtain ⟨group, listed, member⟩ := List.mem_flatMap.mp member
  have fits := small group listed
  simp only [List.mem_cons, List.not_mem_nil, or_false] at member
  omega

/-- `IP.String` -/
def ipString (ip : IP) : Text :=
  if ip.take 12 = mapped [] then dotted (ip.drop 12)
  else ipv6Text (groupsOf ip)

theorem parseIP_ipv6Text {groups : List Nat} (eight : groups.length = 8)
    (small : ∀ group ∈ groups, group < 65536) :
    parseIP (ipv6Text groups) = some (bytesOf groups) := by
  have found : (ipv6Text groups).find?
      (fun char => char = '.' || char = ':' || char = '%') = some ':' := by
    obtain ⟨char, found⟩ := Option.isSome_iff_exists.mp
      (List.find?_isSome.mpr ⟨':', colon_mem_ipv6Text eight, by decide⟩ :
        ((ipv6Text groups).find?
          (fun char => char = '.' || char = ':' || char = '%')).isSome = true)
    have special := List.find?_some found
    rcases mem_ipv6Text small (List.mem_of_find?_eq_some found) with hex | rfl
    · simp only [Bool.or_eq_true, decide_eq_true_eq] at special
      rcases special with (rfl | rfl) | rfl <;> exact absurd hex (by decide)
    · exact found
  unfold parseIP
  rw [found]
  exact parseIPv6_ipv6Text eight small

/-- An address of sixteen bytes is read back. -/
theorem parseIP_ipString {ip : IP} (sixteen : ip.length = 16)
    (small : ∀ byte ∈ ip, byte < 256) : parseIP (ipString ip) = some ip := by
  unfold ipString
  split_ifs with four
  · have octets : (ip.drop 12).length = 4 := by
      rw [List.length_drop, sixteen]
    rw [parseIP_dotted octets
      fun byte left => small byte (List.mem_of_mem_drop left)]
    have whole : mapped (ip.drop 12) = mapped [] ++ ip.drop 12 := by
      simp [mapped]
    rw [whole, ← four, List.take_append_drop]
  · obtain ⟨eight, fields, bytes⟩ := @groupsOf_spec 8 _ sixteen small
    rw [parseIP_ipv6Text eight fields, bytes]

/-! ## What is read is an address -/

/-- Numbers that are bytes. -/
def AllBytes (list : List Nat) : Prop :=
  ∀ byte ∈ list, byte < 256

theorem AllBytes.append {left right : List Nat} (first : AllBytes left)
    (second : AllBytes right) : AllBytes (left ++ right) :=
  List.forall_mem_append.mpr ⟨first, second⟩

theorem octet_lt {part : Text} {value : Nat} (read : octet part = some value) :
    value < 256 := by
  obtain ⟨number, _, checked⟩ := Option.bind_eq_some_iff.mp read
  split_ifs at checked with refused
  obtain rfl := Option.some.inj checked
  rw [not_or] at refused
  omega

theorem mapM_octet_lt {parts : List Text} {octets : List Nat}
    (read : parts.mapM octet = some octets) : AllBytes octets := by
  induction parts generalizing octets with
  | nil =>
      obtain rfl := Option.some.inj read
      simp [AllBytes]
  | cons part parts ih =>
      rw [List.mapM_cons] at read
      obtain ⟨first, found, read⟩ := Option.bind_eq_some_iff.mp read
      obtain ⟨rest, others, read⟩ := Option.bind_eq_some_iff.mp read
      obtain rfl := Option.some.inj read
      exact List.forall_mem_cons.mpr ⟨octet_lt found, ih others⟩

theorem parseIPv4_spec {text : Text} {octets : List Nat}
    (read : parseIPv4 text = some octets) :
    octets.length = 4 ∧ AllBytes octets := by
  obtain ⟨found, parts, checked⟩ := Option.bind_eq_some_iff.mp read
  split_ifs at checked with four
  obtain rfl := Option.some.inj checked
  exact ⟨four, mapM_octet_lt parts⟩

theorem hexValue_lt {char : Char} : (Json.hexValue char).getD 0 < 16 := by
  unfold Json.hexValue
  dsimp only
  split_ifs <;> simp only [Option.getD_some, Option.getD_none] <;> omega

theorem hexNumber_lt {digits : Text} (short : digits.length ≤ 4) :
    hexNumber digits < 65536 := by
  have grows : ∀ (digits : Text) (value : Nat),
      digits.foldl (fun value char =>
        16 * value + (Json.hexValue char).getD 0) value <
          (value + 1) * 16 ^ digits.length := by
    intro digits
    induction digits with
    | nil =>
        intro value
        simp
    | cons char rest ih =>
        intro value
        have digit := @hexValue_lt char
        have later := ih (16 * value + (Json.hexValue char).getD 0)
        refine later.trans_le ?_
        rw [List.length_cons, Nat.pow_succ', ← Nat.mul_assoc]
        exact Nat.mul_le_mul_right _ (by omega)
  have bound := grows digits 0
  have power : 16 ^ digits.length ≤ 16 ^ 4 := Nat.pow_le_pow_right (by decide) short
  unfold hexNumber
  omega

theorem fields_small {left : Nat} {text : Text} {bytes found : List Nat}
    {ellipsis place : Option Nat} (small : AllBytes bytes)
    (read : fields left text bytes ellipsis = some (found, place)) :
    AllBytes found := by
  induction left generalizing text bytes ellipsis with
  | zero =>
      rw [fields] at read
      split_ifs at read
      obtain ⟨rfl, _⟩ := Prod.mk.inj (Option.some.inj read)
      exact small
  | succ left ih =>
      rw [fields] at read
      by_cases size : (text.takeWhile isHex).length = 0 ∨
          4 < (text.takeWhile isHex).length
      · rw [if_pos size] at read
        simp at read
      · rw [if_neg size] at read
        rw [not_or, not_lt] at size
        have number := hexNumber_lt size.2
        have longer : AllBytes (bytes ++
            [hexNumber (text.takeWhile isHex) / 256,
              hexNumber (text.takeWhile isHex) % 256]) := by
          apply small.append
          simp only [AllBytes, List.forall_mem_cons, List.not_mem_nil,
            false_implies, implies_true, and_true]
          omega
        split at read
        next =>
          obtain ⟨rfl, _⟩ := Prod.mk.inj (Option.some.inj read)
          exact longer
        next =>
          split_ifs at read
          obtain ⟨octets, four, same⟩ := Option.map_eq_some_iff.mp read
          obtain ⟨rfl, _⟩ := Prod.mk.inj same
          exact small.append (parseIPv4_spec four).2
        next => simp at read
        next =>
          split_ifs at read
          · obtain ⟨rfl, _⟩ := Prod.mk.inj (Option.some.inj read)
            exact longer
          · exact ih longer read
        next => exact ih longer read
        next => simp at read

theorem expand_spec {bytes : List Nat} {place : Option Nat} {ip : IP}
    (small : AllBytes bytes) (read : expand (bytes, place) = some ip) :
    ip.length = 16 ∧ AllBytes ip := by
  cases place with
  | none =>
      rw [expand] at read
      split_ifs at read with sixteen
      obtain rfl := Option.some.inj read
      exact ⟨sixteen, small⟩
  | some place =>
      rw [expand] at read
      split_ifs at read with short
      obtain rfl := Option.some.inj read
      constructor
      · simp only [List.length_append, List.length_take, List.length_replicate,
          List.length_drop]
        omega
      · refine AllBytes.append (AllBytes.append ?_ ?_) ?_
        · exact fun byte member => small byte (List.mem_of_mem_take member)
        · intro byte member
          rw [List.eq_of_mem_replicate member]
          decide
        · exact fun byte member => small byte (List.mem_of_mem_drop member)

/-- What is read as an address has sixteen bytes. -/
theorem parseIP_spec {text : Text} {ip : IP} (read : parseIP text = some ip) :
    ip.length = 16 ∧ AllBytes ip := by
  have none_ : AllBytes [] := by simp [AllBytes]
  have bound {more : Text} {ellipsis : Option Nat}
      (read : (fields 8 more [] ellipsis).bind expand = some ip) :
      ip.length = 16 ∧ AllBytes ip := by
    obtain ⟨⟨bytes, place⟩, found, expanded⟩ := Option.bind_eq_some_iff.mp read
    exact expand_spec (fields_small none_ found) expanded
  unfold parseIP at read
  split at read
  next =>
    obtain ⟨octets, four, rfl⟩ := Option.map_eq_some_iff.mp read
    obtain ⟨length, small⟩ := parseIPv4_spec four
    constructor
    · simp [mapped, length]
    · refine AllBytes.append ?_ small
      simp only [AllBytes]
      decide
  next =>
    unfold parseIPv6 at read
    split_ifs at read
    split at read
    next =>
      obtain rfl := Option.some.inj read
      exact ⟨rfl, by simp only [AllBytes]; decide⟩
    next => exact bound read
    next => exact bound read
  next => simp at read

/-- The last colon of a text divides it. -/
theorem splitLastColon_eq {text before port : Text}
    (split : splitLastColon text = some (before, port)) :
    text = before ++ ':' :: port ∧ ':' ∉ port := by
  have parts := List.takeWhile_append_dropWhile (p := fun char => char ≠ ':')
    (l := text.reverse)
  have stop := List.head?_dropWhile_not (fun char => decide (char ≠ ':')) text.reverse
  unfold splitLastColon at split
  split at split
  next => simp at split
  next char rest found =>
    obtain ⟨rfl, rfl⟩ := Prod.mk.inj (Option.some.inj split)
    rw [found] at stop parts
    obtain rfl : char = ':' := by simpa using stop
    constructor
    · have whole := congrArg List.reverse parts
      simpa using whole.symm
    · intro member
      have other := List.mem_takeWhile_imp (List.mem_reverse.mp member)
      simp at other

/-- A host that was taken off its port has no brackets. -/
theorem unbracketed_of_splitHostPort {text host port : Text}
    (split : splitHostPort text = some (host, port)) : Unbracketed host := by
  obtain ⟨⟨before, last⟩, found, checked⟩ := Option.bind_eq_some_iff.mp split
  dsimp only at checked
  by_cases opening : text.head? = some '['
  · rw [if_pos opening] at checked
    split_ifs at checked with bracketed
    obtain ⟨rfl, rfl⟩ := Prod.mk.inj (Option.some.inj checked)
    constructor
    · exact fun member =>
        bracketed.2.1 ((List.takeWhile_prefix _).subset member)
    · intro member
      have other := List.mem_takeWhile_imp member
      simp at other
  · rw [if_neg opening] at checked
    split_ifs at checked with refused
    obtain ⟨rfl, rfl⟩ := Prod.mk.inj (Option.some.inj checked)
    rw [not_or, not_or] at refused
    obtain ⟨whole, _⟩ := splitLastColon_eq found
    rw [whole] at refused
    exact ⟨fun member => refused.2.1 (List.mem_append_left _ member),
      fun member => refused.2.2 (List.mem_append_left _ member)⟩

/-! ## One spelling -/

theorem digitChar_of_isDigit {char : Char} (digit : char.isDigit = true) :
    (char.toNat - '0'.toNat).digitChar = char := by
  simp only [Char.isDigit, Bool.and_eq_true, decide_eq_true_eq] at digit
  have low : 48 ≤ char.toNat := digit.1
  have high : char.toNat ≤ 57 := digit.2
  have table : ∀ value : Fin 10,
      (value.val).digitChar = Char.ofNat (value.val + 48) := by
    decide
  have named := table ⟨char.toNat - 48, by omega⟩
  have same : char.toNat - 48 + 48 = char.toNat := by omega
  dsimp only at named
  rw [same, Char.ofNat_toNat] at named
  exact named

/-- Digits without a leading zero are the numeral of their number. -/
theorem decimalText_ofDigitChars {digits : Text}
    (all : ∀ char ∈ digits, char.isDigit = true) (some_ : digits ≠ [])
    (leading : digits.head? = some '0' → digits.length = 1) :
    decimalText (Nat.ofDigitChars 10 digits 0) = digits := by
  induction digits using List.reverseRecOn with
  | nil => exact absurd rfl some_
  | append_singleton front char ih =>
      have digit := digitChar_of_isDigit (all char (by simp))
      have small : char.toNat - '0'.toNat < 10 := by
        have isDigit := all char (by simp)
        simp only [Char.isDigit, Bool.and_eq_true, decide_eq_true_eq] at isDigit
        have high : char.toNat ≤ 57 := isDigit.2
        have zero : '0'.toNat = 48 := by decide
        omega
      have last : decimalText (char.toNat - '0'.toNat) = [char] := by
        rw [decimalText, Nat.toDigits_of_lt_base small, digit]
      rw [Nat.ofDigitChars_append, Nat.ofDigitChars_cons, Nat.ofDigitChars_nil]
      by_cases shown : front = []
      · subst shown
        rw [Nat.ofDigitChars_nil, Nat.mul_zero, Nat.zero_add, last,
          List.nil_append]
      · have head : (front ++ [char]).head? = front.head? :=
          List.head?_append_of_ne_nil front shown
        have longer : (front ++ [char]).length ≠ 1 := by
          have positive := List.length_pos_of_ne_nil shown
          rw [List.length_append, List.length_singleton]
          omega
        have other : front.head? ≠ some '0' := by
          rw [← head]
          exact fun zero => longer (leading zero)
        have known := ih (fun char member => all char (by simp [member])) shown
          fun zero => absurd zero other
        have positive : 0 < Nat.ofDigitChars 10 front 0 := by
          apply Nat.pos_of_ne_zero
          intro zero
          rw [zero] at known
          exact other (by rw [← known]; decide)
        rw [← known, ← last, known]
        exact (Nat.toDigits_append_toDigits (by decide) positive small).symm.trans
          (congrArg (· ++ _) known)

theorem decimalText_octet {part : Text} {value : Nat}
    (read : octet part = some value) : decimalText value = part := by
  obtain ⟨number, counted, checked⟩ := Option.bind_eq_some_iff.mp read
  split_ifs at checked with refused
  obtain rfl := Option.some.inj checked
  unfold decimal at counted
  split_ifs at counted with digits
  obtain rfl := Option.some.inj counted
  rw [not_or] at refused
  apply decimalText_ofDigitChars
  · exact List.all_eq_true.mp digits.2
  · exact digits.1
  · intro zero
    have positive := List.length_pos_of_ne_nil digits.1
    by_contra long
    exact refused.1 ⟨by omega, zero⟩

/-- An IPv4 address has one spelling. -/
theorem dotted_parseIPv4 {text : Text} {octets : List Nat}
    (read : parseIPv4 text = some octets) : dotted octets = text := by
  obtain ⟨found, parts, checked⟩ := Option.bind_eq_some_iff.mp read
  split_ifs at checked
  obtain rfl := Option.some.inj checked
  have spelled : ∀ {parts : List Text} {octets : List Nat},
      parts.mapM octet = some octets → octets.map decimalText = parts := by
    intro parts
    induction parts with
    | nil =>
        intro octets read
        obtain rfl := Option.some.inj read
        rfl
    | cons part parts ih =>
        intro octets read
        rw [List.mapM_cons] at read
        obtain ⟨first, head, read⟩ := Option.bind_eq_some_iff.mp read
        obtain ⟨rest, tail, read⟩ := Option.bind_eq_some_iff.mp read
        obtain rfl := Option.some.inj read
        rw [List.map_cons, decimalText_octet head, ih tail]
  unfold dotted
  rw [spelled parts, List.intercalate_splitOn]

/-- A host without colons that is an address is an IPv4 address in its one
spelling. -/
theorem parseIP_plain {text : Text} {ip : IP} (plain : ':' ∉ text)
    (read : parseIP text = some ip) :
    ∃ octets, octets.length = 4 ∧ AllBytes octets ∧ ip = mapped octets ∧
      text = dotted octets := by
  unfold parseIP at read
  split at read
  next =>
    obtain ⟨octets, four, rfl⟩ := Option.map_eq_some_iff.mp read
    obtain ⟨length, small⟩ := parseIPv4_spec four
    exact ⟨octets, length, small, rfl, (dotted_parseIPv4 four).symm⟩
  next found => exact absurd (List.mem_of_find?_eq_some found) plain
  next => simp at read

end Veil.Lib
