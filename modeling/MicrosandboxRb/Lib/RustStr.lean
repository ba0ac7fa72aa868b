import Mathlib.Init

/-!
# Rust string functions

The functions of `str` that the modelled code calls, on the characters of a string.
-/

namespace RustStr

/-- `char::is_whitespace`: the Unicode `White_Space` property. -/
def isWhitespace (c : Char) : Bool :=
  let n := c.toNat
  (9 ≤ n && n ≤ 13) || n == 0x20 || n == 0x85 || n == 0xA0 || n == 0x1680 ||
    (0x2000 ≤ n && n ≤ 0x200A) || n == 0x2028 || n == 0x2029 || n == 0x202F || n == 0x205F ||
    n == 0x3000

/-- `str::trim`. -/
def trim (s : String) : String :=
  String.ofList ((s.toList.dropWhile isWhitespace).reverse.dropWhile isWhitespace).reverse

/-- `str::to_ascii_lowercase`. -/
def toAsciiLowercase (s : String) : String :=
  String.ofList (s.toList.map Char.toLower)

/-- `str::strip_prefix`, with a string as the pattern. -/
def stripPrefix (pre s : String) : Option String :=
  (pre.toList.isPrefixOf? s.toList).map String.ofList

/-- `str::contains`, with a character as the pattern. -/
def contains (c : Char) (s : String) : Bool := s.toList.contains c

/-- `str::starts_with`, with a character as the pattern. -/
def startsWith (c : Char) (s : String) : Bool := s.toList.head? == some c

/-- `str::split_once`, with a character as the pattern. -/
def splitOnce (c : Char) (s : String) : Option (String × String) :=
  match s.toList.dropWhile (· != c) with
  | [] => none
  | _ :: after => some (String.ofList (s.toList.takeWhile (· != c)), String.ofList after)

/-- `str::parse::<u16>`: decimal digits with an optional plus sign. -/
def parseU16 (s : String) : Option UInt16 :=
  let digits :=
    -- one plus sign may stand in front, a minus sign may not
    match s.toList with
    | '+' :: digits => digits
    | digits => digits
  if digits.isEmpty || !digits.all Char.isDigit then none
  else
    let n := digits.foldl (fun n c => 10 * n + (c.toNat - '0'.toNat)) 0
    if h : n < 65536 then some (UInt16.ofNatLT n h) else none

/-- The `Debug` format of a string. Of the characters that it writes as `\\u\x7b…\x7d`, only the control
characters are treated. -/
def debug (s : String) : String :=
  "\"" ++ String.join (s.toList.map fun c =>
    if c = '"' then "\\\""
    else if c = '\\' then "\\\\"
    else if c = '\n' then "\\n"
    else if c = '\r' then "\\r"
    else if c = '\t' then "\\t"
    else if c.toNat = 0 then "\\0"
    else if c.toNat < 32 || (127 ≤ c.toNat && c.toNat < 160) then
      "\\u\x7b" ++ String.ofList (Nat.toDigits 16 c.toNat) ++ "\x7d"
    else String.ofList [c]) ++ "\""

end RustStr
