import Mathlib.Algebra.Ring.Nat
import Mathlib.Data.List.Sort

/-!
# Go's string functions

What a Go program's configuration code calls on strings, as functions on lists
of characters with a `String` interface: `strings`, `strconv` and the formats of
`fmt`. A string here is a sequence of characters, so Go's handling of invalid
UTF-8 does not arise.
-/

namespace Strings

variable (c : Char)

/-- `unicode.IsSpace`. -/
def isSpace : Bool :=
  c ∈ ['\t', '\n', '\x0b', '\x0c', '\r', ' ', '\u0085', '\u00a0', '\u1680', '\u2028', '\u2029',
    '\u202f', '\u205f', '\u3000'] || ('\u2000' ≤ c && c ≤ '\u200a')

variable (s : String)

/-- `strings.TrimSpace`. -/
def trimSpace : String :=
  String.ofList ((s.toList.dropWhile isSpace).reverse.dropWhile isSpace).reverse

/-- A lower-case hexadecimal digit. -/
def hexDigit (n : Nat) : Char := ("0123456789abcdef".toList.getD (n % 16) '0')

/-- How `strconv.Quote` writes one character. Above U+00FF every character
counts as printable. -/
def quoteChar : List Char :=
  let n := c.toNat
  if c = '"' then ['\\', '"']
  else if c = '\\' then ['\\', '\\']
  else if c = '\x07' then ['\\', 'a']
  else if c = '\x08' then ['\\', 'b']
  else if c = '\x0c' then ['\\', 'f']
  else if c = '\n' then ['\\', 'n']
  else if c = '\r' then ['\\', 'r']
  else if c = '\t' then ['\\', 't']
  else if c = '\x0b' then ['\\', 'v']
  else if n < 0x20 || n = 0x7f then ['\\', 'x', hexDigit (n / 16), hexDigit n]
  else if (0x80 ≤ n && n ≤ 0xa0) || n = 0xad then
    ['\\', 'u', '0', '0', hexDigit (n / 16), hexDigit n]
  else [c]

/-- `strconv.Quote`, the format `%q`. -/
def quote : String :=
  String.ofList ('"' :: s.toList.flatMap quoteChar ++ ['"'])

/-- A digit of the standard base 64 alphabet. -/
def base64Digit (n : Nat) : Char :=
  "ABCDEFGHIJKLMNOPQRSTUVWXYZabcdefghijklmnopqrstuvwxyz0123456789+/".toList.getD (n % 64) 'A'

/-- `base64.StdEncoding`, three bytes at a time. -/
def base64Bytes : List UInt8 → List Char
  | [] => []
  | [a] =>
    let n := a.toNat * 65536
    [base64Digit (n / 262144), base64Digit (n / 4096), '=', '=']
  | [a, b] =>
    let n := a.toNat * 65536 + b.toNat * 256
    [base64Digit (n / 262144), base64Digit (n / 4096), base64Digit (n / 64), '=']
  | a :: b :: c :: rest =>
    let n := a.toNat * 65536 + b.toNat * 256 + c.toNat
    base64Digit (n / 262144) :: base64Digit (n / 4096) :: base64Digit (n / 64) ::
      base64Digit n :: base64Bytes rest

/-- `base64.StdEncoding.EncodeToString`. -/
def encodeToString : String := String.ofList (base64Bytes s.toUTF8.data.toList)

/-- `sort.Strings`. -/
def sorted (l : List String) : List String := l.insertionSort (· ≤ ·)

theorem sorted_perm (l : List String) : (sorted l).Perm l := List.perm_insertionSort _ l

@[simp] theorem mem_sorted {l : List String} {s : String} : s ∈ sorted l ↔ s ∈ l :=
  (sorted_perm l).mem_iff

/-! ## Searching and splitting -/

/-- `strings.HasPrefix`. -/
def startsWith (s start : String) : Bool := start.toList.isPrefixOf s.toList

/-- `strings.Contains`. -/
def contains (s part : String) : Bool := s.toList.tails.any part.toList.isPrefixOf

/-- `strings.ContainsAny`. -/
def containsAny (s chars : String) : Bool := s.toList.any (· ∈ chars.toList)

/-- `strings.Cut` at a character: what stands before and after its first
occurrence. -/
def cut (sep : Char) : List Char → Option (List Char × List Char)
  | [] => none
  | c :: rest =>
    if c = sep then some ([], rest)
    else (cut sep rest).map fun halves => (c :: halves.1, halves.2)

/-- The two sides of a character's last occurrence, as `strings.LastIndex` finds
it. -/
def cutLast (sep : Char) (s : List Char) : Option (List Char × List Char) :=
  (cut sep s.reverse).map fun halves => (halves.2.reverse, halves.1.reverse)

/-- `strings.Split` at a character. -/
def split (sep : Char) : List Char → List (List Char)
  | [] => [[]]
  | c :: rest =>
    if c = sep then [] :: split sep rest
    else
      match split sep rest with
      | [] => [[c]]
      | part :: parts => (c :: part) :: parts

/-! ## Letters and numbers -/

/-- An ASCII lower-case letter. -/
def isLower : Bool := 'a' ≤ c && c ≤ 'z'

/-- An ASCII upper-case letter. -/
def isUpper : Bool := 'A' ≤ c && c ≤ 'Z'

/-- An ASCII digit. -/
def isDigit : Bool := '0' ≤ c && c ≤ '9'

/-- An ASCII letter or digit. -/
def isAlnum : Bool := isLower c || isUpper c || isDigit c

/-- `unicode.ToLower`, as far as it decides whether a text lowers to an ASCII
word: the two letters outside ASCII that lower into it are the dotted capital I
and the Kelvin sign. -/
def lowerChar : Char :=
  if isUpper c then Char.ofNat (c.toNat + 32)
  else if c = '\u0130' then 'i'
  else if c = '\u212a' then 'k'
  else c

/-- `strings.ToLower`, compared with ASCII words only. -/
def toLower : String := String.ofList (s.toList.map lowerChar)

/-- The value of a run of decimal digits. -/
def digits : List Char → Option Nat
  | [] => none
  | cs =>
    if cs.all isDigit then some (cs.foldl (fun n c => n * 10 + (c.toNat - '0'.toNat)) 0) else none

/-- `strconv.Atoi`: a sign, digits, and a value that fits in 64 bits. -/
def atoi (s : List Char) : Option Int :=
  let value := match s with
    | '-' :: cs => (digits cs).map fun n => -(n : Int)
    | '+' :: cs => (digits cs).map fun n => (n : Int)
    | cs => (digits cs).map fun n => (n : Int)
  value.filter fun n => -9223372036854775808 ≤ n && n < 9223372036854775808

/-! ## The texts of composite values -/

/-- A count in decimal, with leading zeros up to a width. -/
def padded (width n : Nat) : List Char :=
  let digits := (toString n).toList
  List.replicate (width - digits.length) '0' ++ digits

/-- `n / 10 ^ places` in decimal, without trailing zeros behind the point. -/
def decimal (places n : Nat) : String :=
  let fraction := ((padded places (n % 10 ^ places)).reverse.dropWhile (· = '0')).reverse
  toString (n / 10 ^ places) ++
    (if fraction = [] ∨ places = 0 then "" else "." ++ String.ofList fraction)

/-- `time.Duration.String`, of nanoseconds. -/
def duration (d : Int) : String :=
  let n := d.natAbs
  let seconds := n / 1000000000
  let text :=
    if n = 0 then "0s"
    else if n < 1000 then decimal 0 n ++ "ns"
    else if n < 1000000 then decimal 3 n ++ "µs"
    else if n < 1000000000 then decimal 6 n ++ "ms"
    else
      (if seconds < 3600 then "" else toString (seconds / 3600) ++ "h") ++
      (if seconds < 60 then "" else toString (seconds / 60 % 60) ++ "m") ++
      decimal 9 (n % 60000000000) ++ "s"
  if d < 0 then "-" ++ text else text

/-- The `%v` of a `map[string]string`: its entries in the order of their keys. -/
def mapText (entries : List (String × String)) : String :=
  "map[" ++ " ".intercalate ((entries.insertionSort fun a b => a.1 ≤ b.1).map fun e =>
    e.1 ++ ":" ++ e.2) ++ "]"

/-- An element of a list in a field path. -/
def index (field : String) (i : Nat) : String := field ++ "[" ++ toString i ++ "]"

/-! ## Decimal texts -/

theorem toString_nat_injective : Function.Injective (toString : Nat → String) := by
  intro n m h
  have hdigits : Nat.toDigits 10 n = Nat.toDigits 10 m := by
    rw [← Nat.toList_repr, ← Nat.toList_repr]
    exact congrArg String.toList h
  rw [← Nat.ofDigitChars_ten_toDigits (n := n), hdigits, Nat.ofDigitChars_ten_toDigits]

theorem minus_ne_toString (n : Nat) : "-" ++ s ≠ toString n := by
  intro h
  have hmem : '-' ∈ Nat.toDigits 10 n := by
    rw [← Nat.toList_repr]
    show '-' ∈ (toString n).toList
    rw [← h, String.toList_append]
    exact List.mem_cons_self
  have hdigit := Nat.isDigit_of_mem_toDigits (by decide) (by decide) hmem
  cases hdigit

theorem toString_int_injective : Function.Injective (toString : Int → String) := by
  intro n m h
  rw [Int.toString_eq_repr, Int.toString_eq_repr, Int.repr_eq_if, Int.repr_eq_if] at h
  split at h <;> split at h
  · have hnat := toString_nat_injective h
    omega
  · exact absurd h.symm (minus_ne_toString _ _)
  · exact absurd h (minus_ne_toString _ _)
  · have hnat := toString_nat_injective (String.append_right_inj _ |>.mp h)
    omega

end Strings
