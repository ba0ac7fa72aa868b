import Mathlib.Data.Nat.Notation

/-!
# Rust's parser for IP addresses

`std::net::IpAddr` and its `FromStr`: dotted decimal IPv4, and IPv6 with hexadecimal groups, at most
one `::`, and an IPv4 address in the place of the last two groups. Every function reads a prefix of
the characters and returns the others.
-/

namespace RustNet

/-- An IP address. -/
inductive IpAddr where
  | v4 (a b c d : UInt8)
  | v6 (segments : Vector UInt16 8)
deriving DecidableEq

/-- `is_ipv4`. -/
def IpAddr.isIpv4 : IpAddr → Bool
  | .v4 .. => true
  | .v6 _ => false

/-- The digits of a number in base `radix`, and their values. -/
def digitValue (radix : ℕ) (c : Char) : Option ℕ :=
  let n := c.toNat
  let digit :=
    if 48 ≤ n ∧ n ≤ 57 then some (n - 48)
    else if 97 ≤ n ∧ n ≤ 102 then some (n - 87)
    else if 65 ≤ n ∧ n ≤ 70 then some (n - 55)
    else none
  digit.filter (· < radix)

/-- `Parser::read_number`: from one to `maxDigits` digits, with a value below `bound`. -/
def readNumber (radix maxDigits bound : ℕ) (allowZeroPrefix : Bool) (cs : List Char) :
    Option (ℕ × List Char) :=
  let digits := cs.takeWhile fun c => (digitValue radix c).isSome
  let n := digits.foldl (fun n c => radix * n + (digitValue radix c).getD 0) 0
  if digits.isEmpty || maxDigits < digits.length then none
  else if !allowZeroPrefix && digits.head? == some '0' && 1 < digits.length then none
  else if n < bound then some (n, cs.drop digits.length)
  else none

/-- `Parser::read_given_char`. -/
def readGivenChar (c : Char) : List Char → Option (List Char)
  | [] => none
  | c' :: cs => if c' = c then some cs else none

/-- `Parser::read_separator`, without its `inner`: the separator stands before every part but the
first. -/
def readSeparator (sep : Char) (index : ℕ) (cs : List Char) : Option (List Char) :=
  if 0 < index then readGivenChar sep cs else some cs

/-- One part of an IPv4 address. -/
def readOctet (index : ℕ) (cs : List Char) : Option (UInt8 × List Char) := do
  let cs ← readSeparator '.' index cs
  let (n, cs) ← readNumber 10 3 256 false cs
  return (UInt8.ofNat n, cs)

/-- `Parser::read_ipv4_addr`. -/
def readIpv4Addr (cs : List Char) : Option ((UInt8 × UInt8 × UInt8 × UInt8) × List Char) := do
  let (a, cs) ← readOctet 0 cs
  let (b, cs) ← readOctet 1 cs
  let (c, cs) ← readOctet 2 cs
  let (d, cs) ← readOctet 3 cs
  return ((a, b, c, d), cs)

/-- Two octets, in network order. -/
def beBytes (a b : UInt8) : UInt16 := a.toUInt16 * 256 + b.toUInt16

/-- `read_groups`, from the group `index` on with `left` groups still allowed: the groups, and
whether the last two of them were an IPv4 address. -/
def readGroups : (left index : ℕ) → List Char → List UInt16 × Bool × List Char
  | 0, _, cs => ([], false, cs)
  | left + 1, index, cs =>
    -- an IPv4 address takes two groups
    let ipv4 := if 0 < left then (readSeparator ':' index cs).bind readIpv4Addr else none
    match ipv4 with
    | some ((a, b, c, d), cs) => ([beBytes a b, beBytes c d], true, cs)
    | none =>
      match (readSeparator ':' index cs).bind (readNumber 16 4 65536 true) with
      | some (n, cs) =>
        let (groups, ipv4, cs) := readGroups left (index + 1) cs
        (UInt16.ofNat n :: groups, ipv4, cs)
      | none => ([], false, cs)

/-- `Parser::read_ipv6_addr`. -/
def readIpv6Addr (cs : List Char) : Option (Vector UInt16 8 × List Char) :=
  let (head, ipv4, cs) := readGroups 8 0 cs
  if head.length = 8 then some (Vector.ofFn fun i => head.getD i 0, cs)
  -- an IPv4 address is not allowed before `::`
  else if ipv4 then none
  else do
    let cs ← readGivenChar ':' cs
    let cs ← readGivenChar ':' cs
    -- `::` stands for at least one group
    let (tail, _, cs) := readGroups (8 - (head.length + 1)) 0 cs
    let groups := head ++ List.replicate (8 - head.length - tail.length) 0 ++ tail
    return (Vector.ofFn fun i => groups.getD i 0, cs)

/-- `str::parse::<IpAddr>`. -/
def parseIpAddr (s : String) : Option IpAddr :=
  match readIpv4Addr s.toList with
  | some ((a, b, c, d), cs) => if cs.isEmpty then some (.v4 a b c d) else none
  | none =>
    match readIpv6Addr s.toList with
    | some (segments, cs) => if cs.isEmpty then some (.v6 segments) else none
    | none => none

/-- The `Display` of the error of `str::parse::<IpAddr>`. -/
def addrParseError : String := "invalid IP address syntax"

example : parseIpAddr "10.0.0.1" = some (.v4 10 0 0 1) := by decide

example : parseIpAddr "::ffff:1.2.3.4" = some (.v6 #v[0, 0, 0, 0, 0, 65535, 258, 772]) := by decide

example : ["1.2.3", "1.2.3.04", "1.2.3.4.5", "256.1.1.1", "1::2::3", ":::", "1:2:3:4:5:6:7:8:9"].map
    parseIpAddr = List.replicate 7 none := by decide

end RustNet
