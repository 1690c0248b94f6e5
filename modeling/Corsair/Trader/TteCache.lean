import Corsair.Digits
import Corsair.Expiry
import Corsair.Lib.HashMap
import Corsair.Lib.Machine

namespace Corsair.Trader

open BrokerApi Expiry

-- `str::len` and byte slicing, on the characters of a string. Cutting one of them is a panic.
def byteLen (text : List Char) : ℕ := (text.map Char.utf8Size).sum

def splitBytes : ℕ → List Char → Option (List Char × List Char)
  | 0, text => some ([], text)
  | _ + 1, [] => none
  | n + 1, c :: rest =>
    if c.utf8Size ≤ n + 1 then (splitBytes (n + 1 - c.utf8Size) rest).map fun parts => (c :: parts.1, parts.2) else none

inductive Panic where | slice
  deriving DecidableEq

def parseI32 (text : List Char) : Except ParseIntError ℤ := parseSigned (-2^31) (2^31 - 1) (String.ofList text)
def parseU32 (text : List Char) : Except ParseIntError ℤ := parseUnsigned (2^32 - 1) (String.ofList text)

-- tte_cache.rs. The slices are taken one after the other, each before its part is parsed.
def parseExpiry (expiry : String) : Except Panic (Option ℤ) :=
  if byteLen expiry.toList ≠ 8 then .ok none
  else match splitBytes 4 expiry.toList with
    | none => .error .slice
    | some (first, rest) => match parseI32 first with
      | .error _ => .ok none
      | .ok year => match splitBytes 2 rest with
        | none => .error .slice
        | some (second, last) => match parseU32 second with
          | .error _ => .ok none
          | .ok month => match parseU32 last with
            | .error _ => .ok none
            | .ok day => .ok ((NaiveDate.fromYmdOpt year month.toNat day.toNat).map (atHour · 21))

-- What a text is expected to be: eight digits that make a date.
def datedDigits (expiry : String) : Option NaiveDate :=
  let text := expiry.toList
  if text.length = 8 ∧ text.all Char.isDigit then
    NaiveDate.fromYmdOpt (natOfDigits (text.take 4)) (natOfDigits ((text.drop 4).take 2))
      (natOfDigits ((text.drop 4).drop 2))
  else none

structure ParsesExactly (expiry : String) : Prop where
  total : ∀ panic, parseExpiry expiry ≠ .error panic
  value : ∀ t, parseExpiry expiry = .ok (some t) ↔ ∃ d, datedDigits expiry = some d ∧ t = atHour d 21

def Unsigned (text : List Char) : Prop := ∀ c ∈ text.head?, isSign c = false

-- No character lies across the fourth byte, nor across the sixth behind a year, and no part
-- of a date has a sign.
structure PlainParts (expiry : String) : Prop where
  fourth : (splitBytes 4 expiry.toList).isSome
  sixth : ∀ first rest year, splitBytes 4 expiry.toList = some (first, rest) → parseI32 first = .ok year →
    (splitBytes 2 rest).isSome
  unsigned : ∀ first rest second last year month day, splitBytes 4 expiry.toList = some (first, rest) →
    splitBytes 2 rest = some (second, last) → parseI32 first = .ok year → parseU32 second = .ok month →
    parseU32 last = .ok day → (NaiveDate.fromYmdOpt year month.toNat day.toNat).isSome →
    Unsigned first ∧ Unsigned second ∧ Unsigned last

section Bytes

theorem digit_byte {c : Char} (digit : c.isDigit = true) : c.utf8Size = 1 := by
  rw [Char.utf8Size_eq_one_iff]
  simp only [Char.isDigit, Bool.and_eq_true, decide_eq_true_eq] at digit
  exact UInt32.le_trans digit.2 (by decide)

theorem byteLen_cons (c : Char) (rest : List Char) : byteLen (c :: rest) = c.utf8Size + byteLen rest := List.sum_cons

theorem digits_byteLen {text : List Char} (all : ∀ c ∈ text, c.isDigit = true) : byteLen text = text.length := by
  induction text with
  | nil => rfl
  | cons c rest next =>
    rw [byteLen_cons, digit_byte (all c List.mem_cons_self), List.length_cons, Nat.add_comm,
      next fun other member => all other (List.mem_cons_of_mem _ member)]

theorem splitBytes_parts {n : ℕ} {text left right : List Char} (split : splitBytes n text = some (left, right)) :
    text = left ++ right ∧ byteLen left = n := by
  fun_induction splitBytes n text generalizing left right with
  | case1 text =>
    cases split
    exact ⟨rfl, rfl⟩
  | case2 => cases split
  | case3 n c rest fits next =>
    obtain ⟨⟨front, back⟩, taken, equal⟩ := Option.map_eq_some_iff.mp split
    cases equal
    obtain ⟨rfl, size⟩ := next taken
    refine ⟨rfl, ?_⟩
    rw [byteLen_cons, size]
    omega
  | case4 => cases split

theorem splitBytes_digits {n : ℕ} {text : List Char} (all : ∀ c ∈ text, c.isDigit = true) (enough : n ≤ text.length) :
    splitBytes n text = some (text.take n, text.drop n) := by
  induction text generalizing n with
  | nil =>
    cases n with
    | zero => rfl
    | succ n => cases enough
  | cons c rest next =>
    cases n with
    | zero => rfl
    | succ n =>
      have one := digit_byte (all c List.mem_cons_self)
      have others := next (fun other member => all other (List.mem_cons_of_mem _ member))
        (Nat.le_of_succ_le_succ enough)
      rw [splitBytes, one, if_pos (by omega), Nat.add_sub_cancel, others]
      rfl

end Bytes

section Parts

theorem unsigned_digits {text : List Char} (all : ∀ c ∈ text, c.isDigit = true) : Unsigned text := by
  intro c head
  exact digit_unsigned (all c (List.mem_of_head? head))

theorem parseI32_digits {text : List Char} (unsigned : Unsigned text) {n : ℤ} (parsed : parseI32 text = .ok n) :
    (∀ c ∈ text, c.isDigit = true) ∧ n = natOfDigits text := by
  cases text with
  | nil => cases parsed
  | cons c rest =>
    rw [parseI32, parseSigned_unsigned _ _ (unsigned c rfl)] at parsed
    rw [natOfDigits_value]
    exact parseDigits_ok parsed

theorem parseU32_digits {text : List Char} (unsigned : Unsigned text) {n : ℤ} (parsed : parseU32 text = .ok n) :
    (∀ c ∈ text, c.isDigit = true) ∧ n = natOfDigits text := by
  cases text with
  | nil => cases parsed
  | cons c rest =>
    rw [parseU32, parseUnsigned_unsigned _ (unsigned c rfl)] at parsed
    rw [natOfDigits_value]
    exact parseDigits_ok parsed

theorem parseI32_year {text : List Char} (all : ∀ c ∈ text, c.isDigit = true) (size : text.length = 4) :
    parseI32 text = .ok (natOfDigits text) := by
  cases text with
  | nil => cases size
  | cons c rest =>
    rw [parseI32, parseSigned_unsigned _ _ (digit_unsigned (all c List.mem_cons_self))]
    exact parseDigits_small all (by norm_num) (by rw [size]; norm_num)

theorem parseU32_pair {text : List Char} (all : ∀ c ∈ text, c.isDigit = true) (size : text.length = 2) :
    parseU32 text = .ok (natOfDigits text) := by
  cases text with
  | nil => cases size
  | cons c rest =>
    rw [parseU32, parseUnsigned_unsigned _ (digit_unsigned (all c List.mem_cons_self))]
    exact parseDigits_small all (le_refl 0) (by rw [size]; norm_num)

end Parts

section Exact

variable {expiry : String}

theorem parsesExactly_iff :
    ParsesExactly expiry ↔ parseExpiry expiry = .ok ((datedDigits expiry).map (atHour · 21)) := by
  constructor
  · intro exactly
    cases parsed : parseExpiry expiry with
    | error panic => exact absurd parsed (exactly.total panic)
    | ok result =>
      cases result with
      | some t =>
        obtain ⟨d, dated, rfl⟩ := (exactly.value t).mp parsed
        rw [dated]
        rfl
      | none =>
        cases dated : datedDigits expiry with
        | none => rfl
        | some d =>
          have given := (exactly.value (atHour d 21)).mpr ⟨d, dated, rfl⟩
          rw [parsed] at given
          cases given
  · intro parsed
    constructor
    case total =>
      intro panic
      rw [parsed]
      intro wrong
      cases wrong
    case value =>
      intro t
      rw [parsed, Except.ok.injEq, Option.map_eq_some_iff]
      exact ⟨fun ⟨d, dated, equal⟩ => ⟨d, dated, equal.symm⟩, fun ⟨d, dated, equal⟩ => ⟨d, dated, equal.symm⟩⟩

-- Eight digits go through every step of the parser.
theorem parseExpiry_digits (size : expiry.toList.length = 8) (all : ∀ c ∈ expiry.toList, c.isDigit = true) :
    parseExpiry expiry = .ok ((datedDigits expiry).map (atHour · 21)) ∧ PlainParts expiry := by
  have dated : datedDigits expiry = NaiveDate.fromYmdOpt (natOfDigits (expiry.toList.take 4))
      (natOfDigits ((expiry.toList.drop 4).take 2)) (natOfDigits ((expiry.toList.drop 4).drop 2)) :=
    if_pos ⟨size, List.all_eq_true.mpr all⟩
  unfold parseExpiry
  rw [dated]
  have bytes : byteLen expiry.toList = 8 := by rw [digits_byteLen all, size]
  generalize whole : expiry.toList = text at *
  have back : ∀ c ∈ text.drop 4, c.isDigit = true := fun c member => all c (List.mem_of_mem_drop member)
  have long : (text.drop 4).length = 4 := by rw [List.length_drop, size]
  have year := parseI32_year (fun c member => all c (List.mem_of_mem_take member))
    (show (text.take 4).length = 4 by simp [size])
  have month := parseU32_pair (fun c member => back c (List.mem_of_mem_take member))
    (show ((text.drop 4).take 2).length = 2 by simp [size])
  have day := parseU32_pair (fun c member => back c (List.mem_of_mem_drop member))
    (show ((text.drop 4).drop 2).length = 2 by simp [size])
  have fourth := splitBytes_digits all (show 4 ≤ text.length by omega)
  have sixth := splitBytes_digits back (show 2 ≤ (text.drop 4).length by omega)
  constructor
  · rw [if_neg (not_not.mpr bytes)]
    simp only [fourth, year, sixth, month, day, Int.toNat_natCast]
  · constructor
    case fourth =>
      rw [whole, fourth]
      rfl
    case sixth =>
      intro first rest year split parsed
      rw [whole, fourth] at split
      cases split
      rw [sixth]
      rfl
    case unsigned =>
      intro first rest second last year month day split halves _ _ _ _
      rw [whole, fourth] at split
      cases split
      rw [sixth] at halves
      cases halves
      exact ⟨unsigned_digits fun c member => all c (List.mem_of_mem_take member),
        unsigned_digits fun c member => back c (List.mem_of_mem_take member),
        unsigned_digits fun c member => back c (List.mem_of_mem_drop member)⟩

-- Parts without a sign that parse are digits, so their text has one for each byte.
theorem parts_digits {first rest second last : List Char} {year month day : ℤ}
    (split : splitBytes 4 expiry.toList = some (first, rest)) (halves : splitBytes 2 rest = some (second, last))
    (bytes : byteLen expiry.toList = 8) (plain : Unsigned first ∧ Unsigned second ∧ Unsigned last)
    (parsedYear : parseI32 first = .ok year) (parsedMonth : parseU32 second = .ok month)
    (parsedDay : parseU32 last = .ok day) :
    expiry.toList.length = 8 ∧ ∀ c ∈ expiry.toList, c.isDigit = true := by
  obtain ⟨whole, -⟩ := splitBytes_parts split
  obtain ⟨parts, -⟩ := splitBytes_parts halves
  have one := (parseI32_digits plain.1 parsedYear).1
  have two := (parseU32_digits plain.2.1 parsedMonth).1
  have three := (parseU32_digits plain.2.2 parsedDay).1
  have all : ∀ c ∈ expiry.toList, c.isDigit = true := by
    intro c member
    rw [whole, parts] at member
    rcases List.mem_append.mp member with early | late
    · exact one c early
    · rcases List.mem_append.mp late with middle | final
      · exact two c middle
      · exact three c final
  exact ⟨by rw [← digits_byteLen all, bytes], all⟩

-- Where the parser stops early or not, given what its steps came to.
theorem parse_fourth (bytes : byteLen expiry.toList = 8) (cut : splitBytes 4 expiry.toList = none) :
    parseExpiry expiry = .error .slice := by
  simp only [parseExpiry, bytes, cut, ne_eq, not_true, if_false]

theorem parse_sixth (bytes : byteLen expiry.toList = 8) {first rest : List Char} {year : ℤ}
    (split : splitBytes 4 expiry.toList = some (first, rest)) (parsedYear : parseI32 first = .ok year)
    (cut : splitBytes 2 rest = none) : parseExpiry expiry = .error .slice := by
  simp only [parseExpiry, bytes, split, parsedYear, cut, ne_eq, not_true, if_false]

theorem parse_date (bytes : byteLen expiry.toList = 8) {first rest second last : List Char} {year month day : ℤ}
    (split : splitBytes 4 expiry.toList = some (first, rest)) (halves : splitBytes 2 rest = some (second, last))
    (parsedYear : parseI32 first = .ok year) (parsedMonth : parseU32 second = .ok month)
    (parsedDay : parseU32 last = .ok day) :
    parseExpiry expiry = .ok ((NaiveDate.fromYmdOpt year month.toNat day.toNat).map (atHour · 21)) := by
  simp only [parseExpiry, bytes, split, halves, parsedYear, parsedMonth, parsedDay, ne_eq, not_true, if_false]

theorem plain_of_none (bytes : byteLen expiry.toList = 8) (parsed : parseExpiry expiry = .ok none) :
    PlainParts expiry := by
  constructor
  case fourth =>
    cases split : splitBytes 4 expiry.toList with
    | some parts => rfl
    | none =>
      rw [parse_fourth bytes split] at parsed
      cases parsed
  case sixth =>
    intro first rest year split parsedYear
    cases halves : splitBytes 2 rest with
    | some parts => rfl
    | none =>
      rw [parse_sixth bytes split parsedYear halves] at parsed
      cases parsed
  case unsigned =>
    intro first rest second last year month day split halves parsedYear parsedMonth parsedDay valid
    obtain ⟨d, dated⟩ := Option.isSome_iff_exists.mp valid
    rw [parse_date bytes split halves parsedYear parsedMonth parsedDay, dated] at parsed
    cases parsed

theorem none_of_plain (bytes : byteLen expiry.toList = 8) (plain : PlainParts expiry)
    (other : ¬(expiry.toList.length = 8 ∧ ∀ c ∈ expiry.toList, c.isDigit = true)) :
    parseExpiry expiry = .ok none := by
  obtain ⟨⟨first, rest⟩, split⟩ := Option.isSome_iff_exists.mp plain.fourth
  cases parsedYear : parseI32 first with
  | error e => simp only [parseExpiry, bytes, split, parsedYear, ne_eq, not_true, if_false]
  | ok year =>
    obtain ⟨⟨second, last⟩, halves⟩ := Option.isSome_iff_exists.mp (plain.sixth first rest year split parsedYear)
    cases parsedMonth : parseU32 second with
    | error e => simp only [parseExpiry, bytes, split, parsedYear, halves, parsedMonth, ne_eq, not_true, if_false]
    | ok month =>
      cases parsedDay : parseU32 last with
      | error e =>
        simp only [parseExpiry, bytes, split, parsedYear, halves, parsedMonth, parsedDay, ne_eq, not_true, if_false]
      | ok day =>
        rw [parse_date bytes split halves parsedYear parsedMonth parsedDay]
        cases dated : NaiveDate.fromYmdOpt year month.toNat day.toNat with
        | none => rfl
        | some d =>
          have unsigned := plain.unsigned first rest second last year month day split halves parsedYear parsedMonth
            parsedDay (by rw [dated]; rfl)
          exact absurd (parts_digits split halves bytes unsigned parsedYear parsedMonth parsedDay) other

theorem exact_iff_plain : ParsesExactly expiry ↔ (byteLen expiry.toList = 8 → PlainParts expiry) := by
  rw [parsesExactly_iff]
  by_cases digits : expiry.toList.length = 8 ∧ ∀ c ∈ expiry.toList, c.isDigit = true
  · obtain ⟨parsed, plain⟩ := parseExpiry_digits digits.1 digits.2
    exact ⟨fun _ _ => plain, fun _ => parsed⟩
  · have undated : datedDigits expiry = none :=
      if_neg fun dated => digits ⟨dated.1, List.all_eq_true.mp dated.2⟩
    rw [undated, Option.map_none]
    by_cases bytes : byteLen expiry.toList = 8
    · exact ⟨fun parsed _ => plain_of_none bytes parsed, fun plain => none_of_plain bytes (plain bytes) digits⟩
    · refine ⟨fun _ same => absurd same bytes, fun _ => ?_⟩
      unfold parseExpiry
      rw [if_pos bytes]

end Exact

-- The cache of settlement instants, cleared when it is full. A miss clears it before the
-- text is parsed.
def maxCacheEntries : ℕ := 32

def timeToExpiryYears (cache : HashMap String ℤ) (call : String × ℤ) :
    HashMap String ℤ × List (Except Panic (Option ℚ)) :=
  match cache.get call.1 with
  | some settlement => (cache, [.ok (some (traderTimeToExpiry settlement call.2))])
  | none =>
    let room := if maxCacheEntries ≤ cache.items.length then ∅ else cache
    match parseExpiry call.1 with
    | .error panic => (room, [.error panic])
    | .ok none => (room, [.ok none])
    | .ok (some settlement) => (room.set call.1 settlement, [.ok (some (traderTimeToExpiry settlement call.2))])

def uncachedYears (call : String × ℤ) : Except Panic (Option ℚ) :=
  (parseExpiry call.1).map (·.map (traderTimeToExpiry · call.2))

section Cache

def CachesParses (cache : HashMap String ℤ) : Prop :=
  ∀ expiry settlement, cache.get expiry = some settlement → parseExpiry expiry = .ok (some settlement)

theorem room_parses {cache : HashMap String ℤ} (parses : CachesParses cache) :
    CachesParses (if maxCacheEntries ≤ cache.items.length then ∅ else cache) := by
  split
  · intro expiry settlement held
    rw [HashMap.get_empty] at held
    cases held
  · exact parses

theorem call_uncached {cache : HashMap String ℤ} (parses : CachesParses cache) (call : String × ℤ) :
    CachesParses (timeToExpiryYears cache call).1 ∧ (timeToExpiryYears cache call).2 = [uncachedYears call] := by
  unfold timeToExpiryYears uncachedYears
  cases hit : cache.get call.1 with
  | some settlement =>
    rw [parses _ _ hit]
    exact ⟨parses, rfl⟩
  | none =>
    have room := room_parses parses
    dsimp only
    generalize (if maxCacheEntries ≤ cache.items.length then ∅ else cache : HashMap String ℤ) = kept at room
    cases parsed : parseExpiry call.1 with
    | error panic => exact ⟨room, rfl⟩
    | ok result =>
      cases result with
      | none => exact ⟨room, rfl⟩
      | some settlement =>
        refine ⟨?_, rfl⟩
        intro expiry other held
        dsimp only at held
        rw [HashMap.get_set] at held
        split at held
        · rename_i own
          cases held
          rw [own]
          exact parsed
        · exact room expiry other held

theorem calls_uncached {cache : HashMap String ℤ} (parses : CachesParses cache) (calls : List (String × ℤ)) :
    Machine.emitted timeToExpiryYears cache calls = calls.map uncachedYears := by
  induction calls generalizing cache with
  | nil => rfl
  | cons call rest next =>
    obtain ⟨kept, answer⟩ := call_uncached parses call
    rw [Machine.emitted, answer, next kept]
    rfl

end Cache

-- The accent takes the fourth and fifth byte; the other text has a sign for a digit twice.
theorem expiry_misread :
    parseExpiry "202\u00e9526" = .error .slice ∧
    (∃ t, parseExpiry "2026+5+1" = .ok (some t)) ∧ datedDigits "2026+5+1" = none ∧
    ¬ParsesExactly "202\u00e9526" ∧ ¬ParsesExactly "2026+5+1" := by
  have cut : parseExpiry "202\u00e9526" = .error .slice := by decide +kernel
  have signed : ∃ t, parseExpiry "2026+5+1" = .ok (some t) := ⟨1777669200 * 10 ^ 9, by decide +kernel⟩
  have undated : datedDigits "2026+5+1" = none := by decide +kernel
  refine ⟨cut, signed, undated, fun exactly => exactly.total _ cut, fun exactly => ?_⟩
  obtain ⟨t, parsed⟩ := signed
  obtain ⟨d, dated, -⟩ := (exactly.value t).mp parsed
  rw [undated] at dated
  cases dated

theorem expiry_parsing (expiry : String) (calls : List (String × ℤ)) :
    (ParsesExactly expiry ↔ (byteLen expiry.toList = 8 → PlainParts expiry)) ∧
    Machine.emitted timeToExpiryYears ∅ calls = calls.map uncachedYears := by
  refine ⟨exact_iff_plain, calls_uncached ?_ calls⟩
  intro text settlement held
  rw [HashMap.get_empty] at held
  cases held

end Corsair.Trader
