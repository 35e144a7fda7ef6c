import Veil.Lib.AddressText

/-!
# IP addresses in the standard library of Rust

An address is read by a parser that takes one number after the other off a
text, and is written with its longest run of zeros left out; an IPv4 address
that is mapped into IPv6 keeps its dotted part.  What is written is read back.
-/

namespace Veil.Lib.RustStd

/-! ## Reading -/

/-- `read_number` of an octet: three digits at most and no leading zero. -/
def readOctet (text : Text) : Option (Nat × Text) :=
  let digits := text.takeWhile Char.isDigit
  let value := Nat.ofDigitChars 10 digits 0
  if digits = [] ∨ 3 < digits.length ∨
      (digits.head? = some '0' ∧ 1 < digits.length) ∨ 255 < value then none
  else some (value, text.dropWhile Char.isDigit)

/-- `read_number` of a group: four hexadecimal digits at most. -/
def readGroup (text : Text) : Option (Nat × Text) :=
  let digits := text.takeWhile isHex
  if digits = [] ∨ 4 < digits.length then none
  else some (hexNumber digits, text.dropWhile isHex)

/-- `read_separator`: nothing stands before the first part. -/
def readSeparator {α : Type} (separator : Char) (index : Nat)
    (inner : Text → Option (α × Text)) (text : Text) : Option (α × Text) :=
  if index = 0 then inner text
  else
    match text with
    | [] => none
    | char :: rest => if char = separator then inner rest else none

def readOctets : Nat → Nat → Text → Option (List Nat × Text)
  | 0, _, text => some ([], text)
  | left + 1, index, text => do
      let (octet, rest) ← readSeparator '.' index readOctet text
      let (octets, rest) ← readOctets left (index + 1) rest
      some (octet :: octets, rest)

/-- `read_ipv4_addr` -/
def readIPv4 (text : Text) : Option (List Nat × Text) :=
  readOctets 4 0 text

/-- `read_groups`: the groups read, whether the last two were an IPv4 address,
and what is left of the text. -/
def readGroups : Nat → Nat → Text → List Nat → List Nat × Bool × Text
  | 0, _, text, groups => (groups, false, text)
  | left + 1, index, text, groups =>
      match if left = 0 then none else readSeparator ':' index readIPv4 text with
      | some (octets, rest) => (groups ++ groupsOf octets, true, rest)
      | none =>
          match readSeparator ':' index readGroup text with
          | some (group, rest) => readGroups left (index + 1) rest (groups ++ [group])
          | none => (groups, false, text)

/-- `read_ipv6_addr` -/
def readIPv6 (text : Text) : Option (List Nat × Text) :=
  let (head, four, rest) := readGroups 8 0 text []
  if head.length = 8 then some (head, rest)
  else if four then none
  else
    match rest with
    | ':' :: ':' :: more =>
        let (tail, _, rest) := readGroups (7 - head.length) 0 more []
        some (head ++ List.replicate (8 - head.length - tail.length) 0 ++ tail,
          rest)
    | _ => none

/-- `std::net::IpAddr`, with its octets or its groups. -/
inductive IpAddr where
  | v4 (octets : List Nat)
  | v6 (groups : List Nat)
  deriving DecidableEq

/-- `str::parse::<IpAddr>` -/
def IpAddr.parse (text : Text) : Option IpAddr :=
  match readIPv4 text with
  | some (octets, rest) => if rest = [] then some (.v4 octets) else none
  | none =>
      match readIPv6 text with
      | some (groups, rest) => if rest = [] then some (.v6 groups) else none
      | none => none

/-! ## Writing -/

/-- A run of zeros: where it starts and its length. -/
structure Span where
  start : Nat := 0
  len : Nat := 0

/-- The span with one more zero, which stands at an index. -/
def Span.grow (span : Span) (index : Nat) : Span :=
  { start := if span.len = 0 then index else span.start
    len := span.len + 1 }

/-- The longest span of zeros, given the one so far and the one that the
group before belongs to. -/
def longestSpan : List Nat → Nat → Span → Span → Span
  | [], _, longest, _ => longest
  | group :: rest, index, longest, current =>
      if group = 0 then
        let current := current.grow index
        longestSpan rest (index + 1)
          (if longest.len < current.len then current else longest) current
      else longestSpan rest (index + 1) longest {}

/-- The groups of an IPv4 address that is mapped into IPv6. -/
def isMapped (groups : List Nat) : Prop :=
  groups.take 6 = [0, 0, 0, 0, 0, 65535]

instance (groups : List Nat) : Decidable (isMapped groups) :=
  inferInstanceAs (Decidable (_ = _))

/-- `Ipv6Addr::to_string` -/
def ipv6String (groups : List Nat) : Text :=
  if isMapped groups then
    "::ffff:".toList ++ dotted (bytesOf (groups.drop 6))
  else
    let zeroes := longestSpan groups 0 {} {}
    if 1 < zeroes.len then
      colonHex (groups.take zeroes.start) ++ ':' :: ':' ::
        colonHex (groups.drop (zeroes.start + zeroes.len))
    else colonHex groups

/-- `IpAddr::to_string` -/
def IpAddr.text : IpAddr → Text
  | .v4 octets => dotted octets
  | .v6 groups => ipv6String groups

/-! ## Octets are read back -/

theorem readOctet_decimalText {value : Nat} (small : value < 256) {rest : Text}
    (stops : Json.Stops rest) :
    readOctet (decimalText value ++ rest) = some (value, rest) := by
  have digits : ∀ char ∈ decimalText value, char.isDigit = true :=
    fun _ member => isDigit_decimalText member
  obtain ⟨taken, dropped⟩ := Json.takeWhile_digits digits stops
  have table : ∀ value : Fin 256, ¬ (decimalText value.val = [] ∨
      3 < (decimalText value.val).length ∨
      ((decimalText value.val).head? = some '0' ∧
        1 < (decimalText value.val).length)) := by
    decide +kernel
  have shape := table ⟨value, small⟩
  have number : Nat.ofDigitChars 10 (decimalText value) 0 = value :=
    Nat.ofDigitChars_ten_toDigits
  unfold readOctet
  simp only [taken, dropped, number]
  rw [if_neg]
  rintro (empty | long | zero | large)
  · exact shape (.inl empty)
  · exact shape (.inr (.inl long))
  · exact shape (.inr (.inr zero))
  · omega

theorem stops_dots (octets : List Nat) {rest : Text} (stops : Json.Stops rest) :
    Json.Stops (octets.flatMap (fun octet => '.' :: decimalText octet) ++ rest) := by
  cases octets with
  | nil => exact stops
  | cons first others =>
      intro char head
      obtain rfl : '.' = char := by simpa using head
      decide

/-- Octets after the first, each with the point before it. -/
theorem readOctets_dots {octets : List Nat} (small : ∀ octet ∈ octets, octet < 256)
    (index : Nat) {rest : Text} (stops : Json.Stops rest) :
    readOctets octets.length (index + 1)
        (octets.flatMap (fun octet => '.' :: decimalText octet) ++ rest) =
      some (octets, rest) := by
  induction octets generalizing index with
  | nil => rfl
  | cons first others ih =>
      have later := ih (fun octet member => small octet (by simp [member]))
        (index + 1)
      have read := readOctet_decimalText (small first (by simp))
        (stops_dots others stops)
      simp only [List.length_cons, List.flatMap_cons, List.cons_append,
        List.append_assoc, readOctets, readSeparator, Nat.add_one_ne_zero,
        if_false, if_true, Option.bind_eq_bind, read, later, Option.bind_some]

theorem dotted_cons (first : Nat) (octets : List Nat) :
    dotted (first :: octets) = decimalText first ++
      octets.flatMap (fun octet => '.' :: decimalText octet) := by
  induction octets generalizing first with
  | nil => simp [dotted]
  | cons second others ih =>
      have step : dotted (first :: second :: others) =
          decimalText first ++ '.' :: dotted (second :: others) := by
        simp [dotted, List.intercalate]
      rw [step, ih, List.flatMap_cons, List.cons_append]

/-- A dotted text is taken off the text it begins. -/
theorem readIPv4_dotted {octets : List Nat} (four : octets.length = 4)
    (small : ∀ octet ∈ octets, octet < 256) {rest : Text}
    (stops : Json.Stops rest) :
    readIPv4 (dotted octets ++ rest) = some (octets, rest) := by
  obtain ⟨first, others, rfl⟩ : ∃ first others, octets = first :: others :=
    List.exists_cons_of_length_eq_add_one four
  have three : others.length = 3 := by simpa using four
  have read := readOctet_decimalText (small first (by simp))
    (stops_dots others stops)
  have othersSmall : ∀ octet ∈ others, octet < 256 :=
    fun octet member => small octet (by simp [member])
  have later := readOctets_dots othersSmall 0 stops
  rw [three] at later
  unfold readIPv4
  rw [dotted_cons, List.append_assoc, readOctets]
  simp only [readSeparator, if_true, read, Option.bind_eq_bind,
    Option.bind_some, later]

theorem rest_of_readOctet {text rest : Text} {octet : Nat}
    (read : readOctet text = some (octet, rest)) :
    rest = text.dropWhile Char.isDigit := by
  unfold readOctet at read
  dsimp only at read
  split_ifs at read
  simp only [Option.some.injEq, Prod.mk.injEq] at read
  exact read.2.symm

theorem readSeparator_eq_none {α : Type} {separator : Char} {index : Nat}
    {inner : Text → Option (α × Text)} {text : Text} (plain : separator ∉ text) :
    readSeparator separator (index + 1) inner text = none := by
  cases text with
  | nil => rfl
  | cons char rest =>
      have other : char ≠ separator := by
        rintro rfl
        exact plain (by simp)
      simp only [readSeparator, Nat.add_one_ne_zero, if_false, other]

/-- Octets after the first need a point. -/
theorem readOctets_eq_none {left index : Nat} {text : Text} (plain : '.' ∉ text) :
    readOctets (left + 1) (index + 1) text = none := by
  rw [readOctets, readSeparator_eq_none plain]
  rfl

/-- Without a point there is no IPv4 address. -/
theorem readIPv4_eq_none {text : Text} (plain : '.' ∉ text) :
    readIPv4 text = none := by
  unfold readIPv4
  rw [readOctets]
  simp only [readSeparator, if_true, Option.bind_eq_bind]
  cases read : readOctet text with
  | none => rfl
  | some found =>
      obtain ⟨octet, rest⟩ := found
      have further : '.' ∉ rest := by
        rw [rest_of_readOctet read]
        exact fun member => plain ((List.dropWhile_suffix _).subset member)
      simp only [Option.bind_some, readOctets_eq_none further, Option.bind_none]

/-! ## Groups are read back -/

theorem readGroup_appendHex {value : Nat} (small : value < 65536) {rest : Text}
    (ends : Ends rest) :
    readGroup (appendHex value ++ rest) = some (value, rest) := by
  obtain ⟨taken, dropped⟩ := takeWhile_appendHex small ends
  obtain ⟨positive, short⟩ := length_appendHex value
  have shown : appendHex value ≠ [] := List.ne_nil_of_length_pos positive
  unfold readGroup
  simp only [taken, dropped, hexNumber_appendHex small]
  rw [if_neg]
  rintro (empty | long)
  · exact shown empty
  · omega

/-- What stands behind the groups of an address: nothing or an ellipsis. -/
def Closes (rest : Text) : Prop :=
  rest = [] ∨ ∃ more, rest = ':' :: ':' :: more

theorem Closes.ends {rest : Text} (closes : Closes rest) : Ends rest := by
  rcases closes with rfl | ⟨more, rfl⟩
  · simp [Ends]
  · intro char head
    obtain rfl : ':' = char := by simpa using head
    decide

theorem ends_colons (groups : List Nat) {rest : Text} (ends : Ends rest) :
    Ends (groups.flatMap (fun group => ':' :: appendHex group) ++ rest) := by
  cases groups with
  | nil => exact ends
  | cons first others =>
      intro char head
      obtain rfl : ':' = char := by simpa using head
      decide

/-- Where the groups end no more of them are read. -/
theorem readGroups_closes {rest : Text} (closes : Closes rest) (left index : Nat)
    (groups : List Nat) :
    readGroups left (index + 1) rest groups = (groups, false, rest) := by
  cases left with
  | zero => rfl
  | succ left =>
      rcases closes with rfl | ⟨more, rfl⟩
      · rw [readGroups]
        split_ifs <;> rfl
      · have octets : readIPv4 (':' :: more) = none := rfl
        have group : readGroup (':' :: more) = none := rfl
        rw [readGroups]
        simp only [readSeparator, Nat.add_one_ne_zero, if_false, octets, group,
          ite_self]

/-- Groups after the first, each with the colon before it. -/
theorem readGroups_colons {groups : List Nat}
    (small : ∀ group ∈ groups, group < 65536) {left : Nat}
    (enough : groups.length ≤ left) (index : Nat) {rest : Text}
    (closes : Closes rest)
    (plain : '.' ∉ groups.flatMap (fun group => ':' :: appendHex group) ++ rest)
    (before : List Nat) :
    readGroups left (index + 1)
        (groups.flatMap (fun group => ':' :: appendHex group) ++ rest) before =
      (before ++ groups, false, rest) := by
  induction groups generalizing left index before with
  | nil =>
      rw [List.append_nil]
      exact readGroups_closes closes left index before
  | cons first others ih =>
      obtain ⟨left, rfl⟩ : ∃ more, left = more + 1 :=
        ⟨left - 1, by simp only [List.length_cons] at enough; omega⟩
      simp only [List.flatMap_cons, List.cons_append, List.append_assoc] at plain ⊢
      have inner : '.' ∉ appendHex first ++
          (others.flatMap (fun group => ':' :: appendHex group) ++ rest) :=
        fun member => plain (List.mem_cons_of_mem _ member)
      have none_ := readIPv4_eq_none inner
      have read := readGroup_appendHex (small first (by simp))
        (ends_colons others closes.ends)
      have later := @ih (fun group member => small group (by simp [member]))
        left (by simpa using enough) (index + 1)
        (fun member => inner (List.mem_append_right _ member))
        (before ++ [first])
      rw [readGroups]
      simp only [readSeparator, Nat.add_one_ne_zero, if_false, if_true, none_,
        ite_self, read, later, List.append_assoc, List.singleton_append]

theorem colonHex_cons (first : Nat) (others : List Nat) :
    colonHex (first :: others) = appendHex first ++
      others.flatMap (fun group => ':' :: appendHex group) := by
  induction others generalizing first with
  | nil => simp [colonHex_singleton]
  | cons second others ih =>
      rw [colonHex_cons_cons, ih, List.flatMap_cons, List.cons_append]

/-- The groups that a text begins with. -/
theorem readGroups_colonHex {groups : List Nat}
    (small : ∀ group ∈ groups, group < 65536) {left : Nat}
    (enough : groups.length ≤ left) {rest : Text} (closes : Closes rest)
    (plain : '.' ∉ colonHex groups ++ rest) :
    readGroups left 0 (colonHex groups ++ rest) [] = (groups, false, rest) := by
  cases groups with
  | nil =>
      cases left with
      | zero => rfl
      | succ left =>
          have none_ := readIPv4_eq_none plain
          have group : readGroup rest = none := by
            rcases closes with rfl | ⟨more, rfl⟩ <;> rfl
          rw [readGroups]
          simp only [colonHex, List.map_nil, List.intercalate_nil,
            List.nil_append, readSeparator, if_true] at none_ ⊢
          simp only [none_, ite_self, group]
  | cons first others =>
      obtain ⟨left, rfl⟩ : ∃ more, left = more + 1 :=
        ⟨left - 1, by simp only [List.length_cons] at enough; omega⟩
      rw [colonHex_cons, List.append_assoc] at plain ⊢
      have none_ := readIPv4_eq_none plain
      have read := readGroup_appendHex (small first (by simp))
        (ends_colons others closes.ends)
      have later := @readGroups_colons _
        (fun group member => small group (by simp [member]))
        left (by simpa using enough) 0 _ closes
        (fun member => plain (List.mem_append_right _ member)) [first]
      rw [readGroups]
      simp only [readSeparator, if_true, none_, ite_self, read, List.nil_append,
        later, List.singleton_append]

/-! ## Addresses are read back -/

/-- The span before a group ends at it, and the longest one lies before it. -/
structure Spans (groups before : List Nat) (longest current : Span) : Prop where
  longest : ∃ front rest, front.length = longest.start ∧
    groups = front ++ List.replicate longest.len 0 ++ rest
  current : ∃ front, before = front ++ List.replicate current.len 0 ∧
    (current.len ≠ 0 → front.length = current.start)

theorem spans_longestSpan {groups before rest : List Nat} {longest current : Span}
    (whole : groups = before ++ rest) (spans : Spans groups before longest current) :
    ∃ front after, front.length =
        (longestSpan rest before.length longest current).start ∧
      groups = front ++
        List.replicate (longestSpan rest before.length longest current).len 0 ++
          after := by
  induction rest generalizing before longest current with
  | nil => exact spans.longest
  | cons group rest ih =>
      have next : groups = (before ++ [group]) ++ rest := by
        rw [whole, List.append_assoc, List.singleton_append]
      have length : before.length + 1 = (before ++ [group]).length := by simp
      rw [longestSpan]
      by_cases zero : group = 0
      · subst zero
        obtain ⟨front, same, place⟩ := spans.current
        have grown : before ++ [0] =
            front ++ List.replicate (current.grow before.length).len 0 := by
          rw [same, List.append_assoc]
          exact congrArg (front ++ ·) List.replicate_succ'.symm
        have start : front.length = (current.grow before.length).start := by
          unfold Span.grow
          dsimp only
          split_ifs with fresh
          · rw [same, fresh]
            simp
          · exact place fresh
        rw [if_pos rfl, length]
        apply ih next
        constructor
        · split_ifs
          · exact ⟨front, rest, start, by rw [next, grown]⟩
          · exact spans.longest
        · exact ⟨front, grown, fun _ => start⟩
      · rw [if_neg zero, length]
        apply ih next
        exact ⟨spans.longest, before ++ [group], by simp, by simp⟩

theorem longestSpan_spec (groups : List Nat) :
    ∃ front after, front.length = (longestSpan groups 0 {} {}).start ∧
      groups = front ++ List.replicate (longestSpan groups 0 {} {}).len 0 ++
        after := by
  apply @spans_longestSpan _ [] _ _ _ rfl
  exact ⟨⟨[], groups, rfl, rfl⟩, [], rfl, fun some_ => absurd rfl some_⟩

theorem point_not_mem_colonHex {groups : List Nat}
    (small : ∀ group ∈ groups, group < 65536) : '.' ∉ colonHex groups := by
  intro member
  rcases mem_colonHex small member with hex | colon
  · exact absurd hex (by decide)
  · exact absurd colon (by decide)

/-- An ellipsis stands for the zeros that are missing. -/
theorem readIPv6_ellipsis {before after : List Nat}
    (beforeSmall : ∀ group ∈ before, group < 65536)
    (afterSmall : ∀ group ∈ after, group < 65536)
    (short : before.length + after.length < 8) :
    readIPv6 (colonHex before ++ ':' :: ':' :: colonHex after) =
      some (before ++ List.replicate (8 - before.length - after.length) 0 ++
        after, []) := by
  have first := point_not_mem_colonHex beforeSmall
  have second := point_not_mem_colonHex afterSmall
  have head := @readGroups_colonHex _ beforeSmall 8 (by omega)
    (':' :: ':' :: colonHex after) (.inr ⟨_, rfl⟩)
    (by simp [first, second])
  have tail := @readGroups_colonHex _ afterSmall (7 - before.length)
    (by omega) [] (.inl rfl) (by simpa using second)
  rw [List.append_nil] at tail
  have few : before.length ≠ 8 := by omega
  unfold readIPv6
  rw [head]
  simp only [few, if_false, Bool.false_eq_true, tail]

theorem readIPv6_colonHex {groups : List Nat} (eight : groups.length = 8)
    (small : ∀ group ∈ groups, group < 65536) :
    readIPv6 (colonHex groups) = some (groups, []) := by
  have plain := point_not_mem_colonHex small
  have head := @readGroups_colonHex _ small _ eight.le [] (.inl rfl)
    (by simpa using plain)
  rw [List.append_nil] at head
  unfold readIPv6
  rw [head]
  simp only [eight, if_true]

/-- A mapped address is read back from its dotted spelling. -/
theorem readIPv6_mapped {octets : List Nat} (four : octets.length = 4)
    (small : ∀ octet ∈ octets, octet < 256) :
    readIPv6 ("::ffff:".toList ++ dotted octets) =
      some ([0, 0, 0, 0, 0, 65535] ++ groupsOf octets, []) := by
  have read := @readIPv4_dotted _ four small [] (by simp [Json.Stops])
  rw [List.append_nil] at read
  have pair : (groupsOf octets).length = 2 :=
    (@groupsOf_spec 2 _ four small).1
  have ffff : "ffff".toList = appendHex 65535 := by decide
  have group := @readGroup_appendHex 65535 (by decide)
    (':' :: dotted octets) (by simp [Ends]; decide)
  rw [← ffff] at group
  have head : readGroups 8 0 ("::ffff:".toList ++ dotted octets) [] =
      ([], false, "::ffff:".toList ++ dotted octets) :=
    rfl
  have none_ : readIPv4 ("ffff".toList ++ ':' :: dotted octets) = none := rfl
  have tail : readGroups 7 0 ("ffff".toList ++ ':' :: dotted octets) [] =
      ([65535] ++ groupsOf octets, true, []) := by
    rw [readGroups]
    simp only [readSeparator, if_true, none_, ite_self, group]
    rw [readGroups]
    simp [readSeparator, read]
  have shape : "::ffff:".toList ++ dotted octets =
      ':' :: ':' :: ("ffff".toList ++ ':' :: dotted octets) :=
    rfl
  unfold readIPv6
  rw [head, shape]
  generalize "ffff".toList ++ ':' :: dotted octets = more at tail
  simp [tail, pair]

/-- The text of an IPv6 address is read back as its groups. -/
theorem readIPv6_ipv6String {groups : List Nat} (eight : groups.length = 8)
    (small : ∀ group ∈ groups, group < 65536) :
    readIPv6 (ipv6String groups) = some (groups, []) := by
  unfold ipv6String
  by_cases mapped : isMapped groups
  · have rest : (groups.drop 6).length = 2 := by
      rw [List.length_drop, eight]
    have four : (bytesOf (groups.drop 6)).length = 4 := by
      rw [length_bytesOf, rest]
    have last : ∀ group ∈ groups.drop 6, group < 65536 :=
      fun group left => small group (List.mem_of_mem_drop left)
    have octets := bytesOf_small last
    rw [if_pos mapped, readIPv6_mapped four octets, groupsOf_bytesOf]
    have front : groups.take 6 = [0, 0, 0, 0, 0, 65535] := mapped
    rw [← front, List.take_append_drop]
  · rw [if_neg mapped]
    dsimp only
    split_ifs with long
    · obtain ⟨front, after, start, shape⟩ := longestSpan_spec groups
      generalize longestSpan groups 0 {} {} = span at *
      have taken : groups.take span.start = front := by
        rw [shape, List.append_assoc, List.take_left' start]
      have left : groups.drop (span.start + span.len) = after := by
        have length : (front ++ List.replicate span.len 0).length =
            span.start + span.len := by
          rw [List.length_append, List.length_replicate, start]
        rw [shape, List.drop_left' length]
      have lengths := congrArg List.length shape
      simp only [List.length_append, List.length_replicate, eight] at lengths
      have missing : 8 - front.length - after.length = span.len := by omega
      have frontSmall : ∀ group ∈ front, group < 65536 := by
        rw [← taken]
        exact fun group member => small group (List.mem_of_mem_take member)
      have afterSmall : ∀ group ∈ after, group < 65536 := by
        rw [← left]
        exact fun group member => small group (List.mem_of_mem_drop member)
      rw [taken, left, readIPv6_ellipsis frontSmall afterSmall (by omega),
        missing, ← shape]
    · exact readIPv6_colonHex eight small

/-- No IPv4 address is read where an IPv6 address was written. -/
theorem readIPv4_ipv6String {groups : List Nat}
    (small : ∀ group ∈ groups, group < 65536) :
    readIPv4 (ipv6String groups) = none := by
  have front : ∀ count, '.' ∉ colonHex (groups.take count) := fun count =>
    point_not_mem_colonHex fun group member =>
      small group (List.mem_of_mem_take member)
  have back : ∀ count, '.' ∉ colonHex (groups.drop count) := fun count =>
    point_not_mem_colonHex fun group member =>
      small group (List.mem_of_mem_drop member)
  unfold ipv6String
  by_cases mapped : isMapped groups
  · rw [if_pos mapped]
    rfl
  · rw [if_neg mapped]
    apply readIPv4_eq_none
    dsimp only
    split_ifs
    · simp [front, back]
    · exact point_not_mem_colonHex small

theorem parse_text_v4 {octets : List Nat} (four : octets.length = 4)
    (small : ∀ octet ∈ octets, octet < 256) :
    IpAddr.parse (IpAddr.v4 octets).text = some (.v4 octets) := by
  have read := @readIPv4_dotted _ four small [] (by simp [Json.Stops])
  rw [List.append_nil] at read
  unfold IpAddr.parse IpAddr.text
  simp only [read, if_true]

theorem parse_text_v6 {groups : List Nat} (eight : groups.length = 8)
    (small : ∀ group ∈ groups, group < 65536) :
    IpAddr.parse (IpAddr.v6 groups).text = some (.v6 groups) := by
  have none_ := readIPv4_ipv6String small
  unfold IpAddr.parse IpAddr.text
  simp only [none_, readIPv6_ipv6String eight small, if_true]

/-! ## One spelling -/

/-- What an octet was read from. -/
theorem readOctet_eq {text rest : Text} {octet : Nat}
    (read : readOctet text = some (octet, rest)) :
    text = decimalText octet ++ rest := by
  have left := rest_of_readOctet read
  unfold readOctet at read
  dsimp only at read
  split_ifs at read with refused
  simp only [Option.some.injEq, Prod.mk.injEq] at read
  rw [not_or, not_or, not_or] at refused
  have spelled := decimalText_ofDigitChars
    (fun _ member => List.mem_takeWhile_imp member) refused.1 (by
      intro zero
      have positive := List.length_pos_of_ne_nil refused.1
      by_contra long
      exact refused.2.2.1 ⟨zero, by omega⟩)
  rw [← read.1, spelled, left, List.takeWhile_append_dropWhile]

theorem readOctets_eq {left index : Nat} {text rest : Text} {octets : List Nat}
    (read : readOctets left (index + 1) text = some (octets, rest)) :
    text = octets.flatMap (fun octet => '.' :: decimalText octet) ++ rest := by
  induction left generalizing index text octets with
  | zero =>
      rw [readOctets] at read
      obtain ⟨rfl, rfl⟩ := Prod.mk.inj (Option.some.inj read)
      rfl
  | succ left ih =>
      rw [readOctets] at read
      obtain ⟨⟨octet, more⟩, first, read⟩ := Option.bind_eq_some_iff.mp read
      obtain ⟨⟨others, last⟩, later, read⟩ := Option.bind_eq_some_iff.mp read
      obtain ⟨rfl, rfl⟩ := Prod.mk.inj (Option.some.inj read)
      cases text with
      | nil => simp [readSeparator] at first
      | cons char tail =>
          simp only [readSeparator, Nat.add_one_ne_zero, if_false] at first
          split_ifs at first with point
          rw [point, readOctet_eq first, ih later, List.flatMap_cons,
            List.cons_append, List.cons_append, List.append_assoc]

theorem readOctets_spec {left index : Nat} {text rest : Text} {octets : List Nat}
    (read : readOctets left index text = some (octets, rest)) :
    octets.length = left ∧ AllBytes octets := by
  induction left generalizing index text octets with
  | zero =>
      rw [readOctets] at read
      obtain ⟨rfl, rfl⟩ := Prod.mk.inj (Option.some.inj read)
      exact ⟨rfl, by simp [AllBytes]⟩
  | succ left ih =>
      rw [readOctets] at read
      obtain ⟨⟨octet, more⟩, first, read⟩ := Option.bind_eq_some_iff.mp read
      obtain ⟨⟨others, last⟩, later, read⟩ := Option.bind_eq_some_iff.mp read
      obtain ⟨rfl, rfl⟩ := Prod.mk.inj (Option.some.inj read)
      have small {text : Text} (read : readOctet text = some (octet, more)) :
          octet < 256 := by
        unfold readOctet at read
        dsimp only at read
        split_ifs at read with refused
        simp only [Option.some.injEq, Prod.mk.injEq] at read
        rw [not_or, not_or, not_or] at refused
        omega
      have first : octet < 256 := by
        unfold readSeparator at first
        split_ifs at first
        · exact small first
        · split at first
          next => simp at first
          next =>
            split_ifs at first
            exact small first
      obtain ⟨length, others⟩ := ih later
      exact ⟨by rw [List.length_cons, length],
        List.forall_mem_cons.mpr ⟨first, others⟩⟩

/-- What an IPv4 address was read from. -/
theorem readIPv4_eq {text rest : Text} {octets : List Nat}
    (read : readIPv4 text = some (octets, rest)) :
    text = dotted octets ++ rest := by
  unfold readIPv4 at read
  rw [readOctets] at read
  obtain ⟨⟨octet, more⟩, first, read⟩ := Option.bind_eq_some_iff.mp read
  obtain ⟨⟨others, last⟩, later, read⟩ := Option.bind_eq_some_iff.mp read
  obtain ⟨rfl, rfl⟩ := Prod.mk.inj (Option.some.inj read)
  rw [dotted_cons, List.append_assoc, ← readOctets_eq later]
  exact readOctet_eq first

/-- Groups after the first need a colon. -/
theorem readGroups_plain {text : Text} (plain : ':' ∉ text) (left index : Nat)
    (groups : List Nat) :
    readGroups left (index + 1) text groups = (groups, false, text) := by
  cases left with
  | zero => rfl
  | succ left =>
      rw [readGroups, readSeparator_eq_none plain, readSeparator_eq_none plain,
        ite_self]

theorem not_ellipsis {text : Text} (plain : ':' ∉ text) (more : Text) :
    text ≠ ':' :: ':' :: more := by
  rintro rfl
  exact plain (by simp)

/-- Without a colon there is no IPv6 address. -/
theorem readIPv6_eq_none {text : Text} (plain : ':' ∉ text)
    (none_ : readIPv4 text = none) : readIPv6 text = none := by
  have head : ∃ few rest, readGroups 8 0 text [] = (few, false, rest) ∧
      few.length ≠ 8 ∧ ':' ∉ rest := by
    rw [readGroups]
    simp only [readSeparator, if_true, none_, ite_self]
    cases read : readGroup text with
    | none => exact ⟨[], text, rfl, by decide, plain⟩
    | some found =>
        obtain ⟨group, rest⟩ := found
        have further : ':' ∉ rest := by
          unfold readGroup at read
          dsimp only at read
          split_ifs at read
          obtain ⟨_, rfl⟩ := Prod.mk.inj (Option.some.inj read)
          exact fun member => plain ((List.dropWhile_suffix _).subset member)
        dsimp only
        rw [readGroups_plain further]
        exact ⟨[group], rest, rfl, by simp, further⟩
  obtain ⟨few, rest, groups, short, further⟩ := head
  unfold readIPv6
  rw [groups]
  simp only [short, if_false, Bool.false_eq_true]
  split
  next more => exact absurd rfl (not_ellipsis further more)
  next => rfl

/-- A host without colons that is an address is an IPv4 address in its one
spelling. -/
theorem parse_plain {text : Text} {address : IpAddr} (plain : ':' ∉ text)
    (read : IpAddr.parse text = some address) :
    ∃ octets, address = .v4 octets ∧ text = dotted octets ∧
      octets.length = 4 ∧ AllBytes octets := by
  unfold IpAddr.parse at read
  split at read
  next octets rest found =>
    split_ifs at read with ended
    obtain rfl := Option.some.inj read
    refine ⟨octets, rfl, ?_, readOctets_spec found⟩
    rw [readIPv4_eq found, ended, List.append_nil]
  next none_ =>
    rw [readIPv6_eq_none plain none_] at read
    simp at read

end Veil.Lib.RustStd
